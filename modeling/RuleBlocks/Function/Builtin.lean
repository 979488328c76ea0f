import RuleBlocks.Function.Signature

/-!
# Built-in functions

The functions that every catalog may start from, by subject. Each is given by its name, its type,
whether rule authors are offered it, and its signature; all are public.

Main definitions:

* `Builtin`, `Builtin.all` — the table;
* `Builtin.descriptors` — the descriptors that it stands for.
-/

namespace RuleBlocks

structure Builtin where
  name : String
  returnType : ReturnType
  enabled : Bool
  signature : String
deriving Repr

namespace Builtin

def conversions : List Builtin := [
  ⟨"to_bool", .boolean, true, "value:object"⟩,
  ⟨"to_double", .double, true, "value:object, default:double?"⟩,
  ⟨"to_long", .long, true, "value:object, default:long?"⟩,
  ⟨"to_string", .string, true, "value:object, default:string?"⟩,
  ⟨"to_map", .map, true, "value:object"⟩,
  ⟨"csv_to_map", .map, true,
    "value:string, fieldNames:string, separator:string?, quoteChar:string?"⟩,
  ⟨"hex_to_decimal", .long, true, "value:string"⟩]

def typeChecks : List Builtin := [
  ⟨"is_bool", .boolean, true, "value:object"⟩,
  ⟨"is_number", .boolean, true, "value:object"⟩,
  ⟨"is_double", .boolean, true, "value:object"⟩,
  ⟨"is_long", .boolean, true, "value:object"⟩,
  ⟨"is_string", .boolean, true, "value:object"⟩,
  ⟨"is_collection", .boolean, true, "value:object"⟩,
  ⟨"is_list", .boolean, true, "value:object"⟩,
  ⟨"is_map", .boolean, true, "value:object"⟩,
  ⟨"is_date", .boolean, true, "value:object"⟩,
  ⟨"is_period", .boolean, true, "value:object"⟩,
  ⟨"is_ip", .boolean, true, "value:object"⟩,
  ⟨"is_json", .boolean, true, "value:object"⟩,
  ⟨"is_url", .boolean, true, "value:object"⟩]

def messageFields : List Builtin := [
  ⟨"has_field", .boolean, true, "field:string, message:message?"⟩,
  ⟨"get_field", .object, true, "field:string, message:message?"⟩,
  ⟨"set_field", .void, true,
    "field:string, value:object, prefix:string?, suffix:string?, message:message?, " ++
    "default:object?"⟩,
  ⟨"set_fields", .void, true, "fields:map, prefix:string?, suffix:string?, message:message?"⟩,
  ⟨"rename_field", .void, true, "old_field:string, new_field:string, message:message?"⟩,
  ⟨"remove_field", .void, true, "field:string, message:message?, invert:boolean?"⟩,
  ⟨"remove_single_field", .void, true, "field:string, message:message?"⟩,
  ⟨"remove_multiple_fields", .void, true, "pattern:string?, names:list?, message:message?"⟩,
  ⟨"remove_string_fields_by_value", .void, true, "value:string, message:message?"⟩,
  ⟨"normalize_fields", .void, true, "message:message?"⟩]

def messageHandling : List Builtin := [
  ⟨"drop_message", .void, true, "message:message?"⟩,
  ⟨"create_message", .message, false, "message:string?, source:string?, timestamp:date_time?"⟩,
  ⟨"clone_message", .message, false, "message:message?, preserve_streams:boolean?"⟩,
  ⟨"remove_from_stream", .void, true, "id:string?, name:string?, message:message?"⟩,
  ⟨"route_to_stream", .void, true,
    "id:string?, name:string?, message:message?, remove_from_default:boolean?"⟩,
  ⟨"traffic_accounting_size", .long, false, "message:message?"⟩,
  ⟨"from_input", .boolean, true, "id:string?, name:string?"⟩]

def patternMatching : List Builtin := [
  ⟨"regex", .map, true, "pattern:string, value:string, group_names:list?"⟩,
  ⟨"regex_replace", .string, true,
    "pattern:string, value:string, replacement:string, replace_all:boolean?"⟩,
  ⟨"grok", .map, true, "pattern:string, value:string, only_named_captures:boolean?"⟩,
  ⟨"multi_grok", .map, true, "patterns:list, value:string, only_named_captures:boolean?"⟩,
  ⟨"grok_exists", .boolean, true, "pattern:string, log_missing:boolean?"⟩]

def strings : List Builtin := [
  ⟨"abbreviate", .string, true, "value:string, width:long"⟩,
  ⟨"capitalize", .string, true, "value:string"⟩,
  ⟨"contains", .boolean, true, "value:string, search:string, ignore_case:boolean?"⟩,
  ⟨"ends_with", .boolean, true, "value:string, suffix:string, ignore_case:boolean?"⟩,
  ⟨"lowercase", .string, true, "value:string, locale:string?"⟩,
  ⟨"substring", .string, true, "value:string, start:long, end:long?"⟩,
  ⟨"swapcase", .string, true, "value:string"⟩,
  ⟨"uncapitalize", .string, true, "value:string"⟩,
  ⟨"uppercase", .string, true, "value:string, locale:string?"⟩,
  ⟨"concat", .string, true, "first:string, second:string"⟩,
  ⟨"key_value", .map, true,
    "value:string, delimiters:string?, kv_delimiters:string?, " ++
    "ignore_empty_values:boolean?, allow_dup_keys:boolean?, handle_dup_keys:string?, " ++
    "trim_key_chars:string?, trim_value_chars:string?"⟩,
  ⟨"join", .string, true, "elements:list, delimiter:string?, start:long?, end:long?"⟩,
  ⟨"split", .list, true, "pattern:string, value:string, limit:long?"⟩,
  ⟨"starts_with", .boolean, true, "value:string, prefix:string, ignore_case:boolean?"⟩,
  ⟨"replace", .string, true, "value:string, search:string, replacement:string?, max:long?"⟩,
  ⟨"length", .long, true, "value:string, bytes:boolean?"⟩,
  ⟨"first_non_null", .object, true, "value:list"⟩,
  ⟨"string_entropy", .double, true, "value:string, default:double?"⟩]

def json : List Builtin := [
  ⟨"parse_json", .object, true, "value:string, depth:long?"⟩,
  ⟨"flatten_json", .object, true, "value:string, array_flatten:string, stringify:boolean?"⟩,
  ⟨"select_jsonpath", .map, true, "json:object, paths:map"⟩]

def dates : List Builtin := [
  ⟨"to_date", .dateTime, true, "value:object, timezone:string?"⟩,
  ⟨"now", .dateTime, false, "timezone:string?"⟩,
  ⟨"parse_date", .dateTime, true, "value:string, pattern:string, locale:string?, timezone:string?"⟩,
  ⟨"parse_unix_milliseconds", .dateTime, true, "value:long, timezone:string?"⟩,
  ⟨"flex_parse_date", .dateTime, true, "value:string, default:date_time?, timezone:string?"⟩,
  ⟨"format_date", .string, true, "value:date_time, format:string, timezone:string?"⟩,
  ⟨"years", .duration, false, "value:long"⟩,
  ⟨"months", .duration, false, "value:long"⟩,
  ⟨"weeks", .duration, false, "value:long"⟩,
  ⟨"days", .duration, false, "value:long"⟩,
  ⟨"hours", .duration, false, "value:long"⟩,
  ⟨"minutes", .duration, false, "value:long"⟩,
  ⟨"seconds", .duration, false, "value:long"⟩,
  ⟨"millis", .duration, false, "value:long"⟩,
  ⟨"period", .duration, false, "value:string"⟩]

def hashing : List Builtin := [
  ⟨"crc32", .string, true, "value:string"⟩,
  ⟨"crc32c", .string, true, "value:string"⟩,
  ⟨"md5", .string, true, "value:string"⟩,
  ⟨"murmur3_32", .string, true, "value:string"⟩,
  ⟨"murmur3_128", .string, true, "value:string"⟩,
  ⟨"sha1", .string, true, "value:string"⟩,
  ⟨"sha256", .string, true, "value:string"⟩,
  ⟨"sha512", .string, true, "value:string"⟩]

def encoding : List Builtin := [
  ⟨"base16_encode", .string, true, "value:string, omit_padding:boolean?"⟩,
  ⟨"base16_decode", .string, true, "value:string, omit_padding:boolean?"⟩,
  ⟨"base32_encode", .string, true, "value:string, omit_padding:boolean?"⟩,
  ⟨"base32_decode", .string, true, "value:string, omit_padding:boolean?"⟩,
  ⟨"base32human_encode", .string, true, "value:string, omit_padding:boolean?"⟩,
  ⟨"base32human_decode", .string, true, "value:string, omit_padding:boolean?"⟩,
  ⟨"base64_encode", .string, true, "value:string, omit_padding:boolean?"⟩,
  ⟨"base64_decode", .string, true, "value:string, omit_padding:boolean?"⟩,
  ⟨"base64url_encode", .string, true, "value:string, omit_padding:boolean?"⟩,
  ⟨"base64url_decode", .string, true, "value:string, omit_padding:boolean?"⟩]

def ipHandling : List Builtin := [
  ⟨"cidr_match", .boolean, true, "cidr:string, ip:ip_address"⟩,
  ⟨"to_ip", .ipAddress, true, "ip:object, default:string?"⟩,
  ⟨"anonymize_ip", .ipAddress, true, "ip:ip_address"⟩]

def nullSupport : List Builtin := [
  ⟨"is_null", .boolean, true, "value:object"⟩,
  ⟨"is_not_null", .boolean, true, "value:object"⟩]

def urls : List Builtin := [
  ⟨"to_url", .url, true, "url:object, default:string?"⟩,
  ⟨"urldecode", .string, true, "value:string, charset:string?"⟩,
  ⟨"urlencode", .string, true, "value:string, charset:string?"⟩]

def syslog : List Builtin := [
  ⟨"syslog_facility", .string, true, "value:long"⟩,
  ⟨"syslog_level", .string, true, "value:long"⟩,
  ⟨"expand_syslog_priority", .object, true, "value:long"⟩,
  ⟨"expand_syslog_priority_as_string", .object, true, "value:long"⟩]

def lookupTables : List Builtin := [
  ⟨"lookup", .map, true, "lookup_table:string, key:object, default:object?"⟩,
  ⟨"lookup_value", .object, true, "lookup_table:string, key:object, default:object?"⟩,
  ⟨"lookup_has_value", .boolean, true, "lookup_table:string, key:object"⟩,
  ⟨"lookup_string_list", .list, true, "lookup_table:string, key:object, default:list?"⟩,
  ⟨"lookup_set_value", .object, true, "lookup_table:string, key:string, value:object, ttl:long?"⟩,
  ⟨"lookup_clear_key", .void, true, "lookup_table:string, key:string"⟩,
  ⟨"lookup_set_string_list", .list, true, "lookup_table:string, key:string, value:list"⟩,
  ⟨"lookup_add_string_list", .list, true,
    "lookup_table:string, key:string, value:list, keep_duplicates:boolean?"⟩,
  ⟨"lookup_remove_string_list", .list, true, "lookup_table:string, key:string, value:list"⟩,
  ⟨"lookup_string_list_contains", .boolean, true, "lookup_table:string, key:object, value:string"⟩,
  ⟨"lookup_assign_ttl", .object, true, "lookup_table:string, key:string, ttl:long"⟩,
  ⟨"list_get", .object, true, "value:list, index:long"⟩,
  ⟨"list_count", .long, true, "value:list"⟩,
  ⟨"lookup_all", .list, true, "lookup_table:string, keys:list"⟩]

def maps : List Builtin := [
  ⟨"map_remove", .map, true, "map:map, key:string"⟩,
  ⟨"map_set", .map, true, "map:map, key:string, value:object"⟩,
  ⟨"map_get", .object, true, "map:map, key:string"⟩,
  ⟨"map_copy", .map, true, "map:map"⟩]

def debugging : List Builtin := [
  ⟨"debug", .void, false, "value:object"⟩,
  ⟨"metric_counter_increment", .void, true, "name:string, value:long?"⟩]

def arrays : List Builtin := [
  ⟨"array_contains", .boolean, true, "elements:list, value:object, case_sensitive:boolean?"⟩,
  ⟨"array_remove", .list, true, "elements:list, value:object, remove_all:boolean?"⟩,
  ⟨"string_array_add", .list, true, "elements:list, value:object, only_unique:boolean?"⟩]

def all : List Builtin :=
  conversions ++ typeChecks ++ messageFields ++ messageHandling ++ patternMatching ++ strings ++
    json ++ dates ++ hashing ++ encoding ++ ipHandling ++ nullSupport ++ urls ++ syslog ++
    lookupTables ++ maps ++ debugging ++ arrays

def descriptor (b : Builtin) : Except CatalogError FunctionDescriptor :=
  (parseSignature b.name b.signature).map fun params =>
    { FunctionDescriptor.ofType b.name b.returnType with enabled := b.enabled, params }

def descriptors : Except CatalogError (List FunctionDescriptor) :=
  all.mapM descriptor

end Builtin

end RuleBlocks
