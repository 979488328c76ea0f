import Mathlib.Data.List.Induction
import RuleBlocks.Template.Engine

/-!
# Sources added one after the other

A name may be added any number of times, and some of its sources may not compile. Such a call is
told why and is as good as not made: neither what an earlier call has put there nor its place is
lost. A source that compiles takes the place of the earlier one of its name, if there is one, and
otherwise the last place. Hence an engine can be read off the calls that succeed alone: the last one
of a name says what the name holds, the first one where it stands.

* `NamedSource`, `TemplateEngine.addAll` — the calls, their answers, and the engine that is left;
* `lastCompiled` — the template of the last source of a name that compiles;
* `TemplateEngine.Reflects` — the invariant: what an engine holds after some calls;
* `Reflects.offer`, `reflects_addAll` — every call keeps it, and so do calls of any number;
* `engine_holds_last_compiled` — what an engine holds, in which order, and what it renders.
-/

namespace RuleBlocks

-- ---------------------------------------------------------------------------
-- Calls
-- ---------------------------------------------------------------------------

/-- A source that is to be added under a name. -/
structure NamedSource where
  name : String
  text : String

namespace NamedSource

def compile (s : NamedSource) : Except TemplateError Template :=
  Template.compile s.name s.text

def compiles (s : NamedSource) : Bool :=
  s.compile.isOk

end NamedSource

namespace TemplateEngine

/-- Add a source; tells why it was refused, if it was. Then the engine stays as it is. -/
def offer (e : TemplateEngine) (s : NamedSource) : Except TemplateError Unit × TemplateEngine :=
  match e.add s.name s.text with
  | .ok later => (.ok (), later)
  | .error error => (.error error, e)

/-- Add sources one after the other; tells what became of each. -/
def addAll (e : TemplateEngine) :
    List NamedSource → List (Except TemplateError Unit) × TemplateEngine
  | [] => ([], e)
  | s :: rest =>
    let (answer, later) := e.offer s
    let (answers, last) := later.addAll rest
    (answer :: answers, last)

variable {e : TemplateEngine} {s : NamedSource} {t : Template} {error : TemplateError}

/-- A source that compiles replaces what the engine holds under its name. -/
theorem offer_of_ok (h : s.compile = .ok t) :
    e.offer s = (.ok (), { templates := e.templates.insert s.name t }) := by
  rw [NamedSource.compile] at h
  rw [offer, add, h]
  rfl

/-- A source that does not compile leaves the engine as it is. -/
theorem offer_of_error (h : s.compile = .error error) : e.offer s = (.error error, e) := by
  rw [NamedSource.compile] at h
  rw [offer, add, h]
  rfl

/-- Sources in two parts. -/
theorem addAll_append (e : TemplateEngine) (before after : List NamedSource) :
    e.addAll (before ++ after) =
      ((e.addAll before).1 ++ ((e.addAll before).2.addAll after).1,
        ((e.addAll before).2.addAll after).2) := by
  induction before generalizing e with
  | nil => rfl
  | cons s rest ih => simp only [List.cons_append, addAll, ih]

/-- The last source is offered to the engine that the others leave. -/
theorem addAll_concat (e : TemplateEngine) (before : List NamedSource) (s : NamedSource) :
    e.addAll (before ++ [s]) =
      ((e.addAll before).1 ++ [((e.addAll before).2.offer s).1],
        ((e.addAll before).2.offer s).2) := by
  rw [addAll_append]
  rfl

end TemplateEngine

-- ---------------------------------------------------------------------------
-- What the calls say
-- ---------------------------------------------------------------------------

/-- The template of the last source of a name that compiles. -/
def lastCompiled (name : String) (sources : List NamedSource) : Option Template :=
  sources.reverse.findSome? fun s => if s.name = name then s.compile.toOption else none

section LastCompiled

variable {name : String} {sources : List NamedSource} {s : NamedSource} {t : Template}

/-- The last source counts if it has the name and compiles. -/
theorem lastCompiled_concat (name : String) (sources : List NamedSource) (s : NamedSource) :
    lastCompiled name (sources ++ [s]) =
      (if s.name = name then s.compile.toOption else none).or (lastCompiled name sources) := by
  rw [lastCompiled, List.reverse_append, List.findSome?_append, List.reverse_singleton,
    List.findSome?_singleton, lastCompiled]

theorem toOption_eq_none_iff : s.compile.toOption = none ↔ s.compiles = false := by
  rw [NamedSource.compiles]
  cases s.compile <;> simp [Except.toOption, Except.isOk, Except.toBool]

theorem toOption_eq_some_iff : s.compile.toOption = some t ↔ s.compile = .ok t := by
  cases s.compile <;> simp [Except.toOption]

/-- There is no last one if none of the name compiles. -/
theorem lastCompiled_eq_none_iff :
    lastCompiled name sources = none ↔ ∀ s ∈ sources, s.name = name → s.compiles = false := by
  rw [lastCompiled, List.findSome?_eq_none_iff]
  simp only [List.mem_reverse, ite_eq_right_iff, toOption_eq_none_iff]

/-- What is found is the template of a source, behind which no other one of the name compiles. -/
theorem lastCompiled_eq_some_iff :
    lastCompiled name sources = some t ↔
      ∃ before s after, sources = before ++ s :: after ∧ s.name = name ∧ s.compile = .ok t ∧
        ∀ later ∈ after, later.name = name → later.compiles = false := by
  have hSource (s : NamedSource) : (if s.name = name then s.compile.toOption else none) = some t ↔
      s.name = name ∧ s.compile = .ok t := by
    -- looked for from the end: the first that counts there is the last one added
    rw [Option.ite_none_right_eq_some, toOption_eq_some_iff]
  have hSilent (s : NamedSource) : (if s.name = name then s.compile.toOption else none) = none ↔
      (s.name = name → s.compiles = false) := by
    rw [ite_eq_right_iff, toOption_eq_none_iff]
  rw [lastCompiled, List.findSome?_eq_some_iff]
  simp only [hSource, hSilent]
  constructor
  · rintro ⟨after, s, before, hSplit, ⟨hName, hCompile⟩, hAfter⟩
    refine ⟨before.reverse, s, after.reverse, ?_, hName, hCompile, fun later hLater => ?_⟩
    · rw [← List.reverse_reverse sources, hSplit]
      simp
    · exact hAfter later (List.mem_reverse.mp hLater)
  · rintro ⟨before, s, after, rfl, hName, hCompile, hAfter⟩
    refine ⟨after.reverse, s, before.reverse, by simp, ⟨hName, hCompile⟩, fun later hLater => ?_⟩
    exact hAfter later (List.mem_reverse.mp hLater)

end LastCompiled

-- ---------------------------------------------------------------------------
-- What an engine holds
-- ---------------------------------------------------------------------------

namespace TemplateEngine

/-- What an engine holds after some calls. -/
structure Reflects (e : TemplateEngine) (sources : List NamedSource) : Prop where
  find? : ∀ name, e.find? name = lastCompiled name sources
  /-- A name stands where its first source that compiles came. -/
  names : e.names = ((sources.filter (·.compiles)).map (·.name)).eraseDups
  nodup : e.names.Nodup

variable {e : TemplateEngine} {sources : List NamedSource}

/-- **Step.** What is added is found from now on, and has its place if it had none. -/
theorem Reflects.offer (h : e.Reflects sources) (s : NamedSource) :
    (e.offer s).2.Reflects (sources ++ [s]) := by
  cases hCompile : s.compile with
  | error error =>
    have hNot : s.compiles = false := by rw [NamedSource.compiles, hCompile]; rfl
    rw [offer_of_error hCompile]
    refine ⟨fun name => ?_, ?_, h.nodup⟩
    -- nothing new counts, so what counted before still does
    · rw [lastCompiled_concat, hCompile, h.find?]
      split <;> rfl
    · rw [List.filter_append, List.filter_cons_of_neg (Bool.not_eq_true _ ▸ hNot), List.filter_nil,
        List.append_nil, h.names]
  | ok t =>
    have hDoes : s.compiles = true := by rw [NamedSource.compiles, hCompile]; rfl
    rw [offer_of_ok hCompile]
    refine ⟨fun name => ?_, ?_, Named.nodup_names_insert _ _ h.nodup⟩
    · rw [lastCompiled_concat, hCompile, ← h.find?]
      refine (Named.find?_insert ..).trans ?_
      by_cases hName : name = s.name
      · rw [if_pos hName, if_pos hName.symm]
        rfl
      · rw [if_neg hName, if_neg (Ne.symm hName), Option.none_or]
        rfl
    · refine (Named.names_insert ..).trans ?_
      change (if s.name ∈ e.names then e.names else e.names ++ [s.name]) = _
      rw [List.filter_append, List.filter_cons_of_pos hDoes, List.filter_nil, List.map_append,
        List.eraseDups_append, h.names]
      simp only [List.mem_eraseDups]
      split
      -- a name that is there keeps its place
      case isTrue hMem => simp [List.removeAll, hMem]
      -- a new one comes last
      case isFalse hNew => simp [List.removeAll, hNew, List.eraseDups_cons]

/-- **Run.** Whatever the calls are, the engine reflects all of them. -/
theorem reflects_addAll (sources : List NamedSource) :
    (empty.addAll sources).2.Reflects sources := by
  induction sources using List.reverseRecOn with
  | nil => exact ⟨fun _ => rfl, rfl, List.nodup_nil⟩
  | append_singleton sources s ih =>
    rw [addAll_concat]
    exact ih.offer s

/-- Each source is answered by itself: what the others are does not matter. -/
theorem answers_addAll (e : TemplateEngine) (sources : List NamedSource) :
    (e.addAll sources).1 = sources.map fun s => s.compile.map fun _ => () := by
  induction sources generalizing e with
  | nil => rfl
  | cons s rest ih =>
    have hAnswer : (e.offer s).1 = s.compile.map fun _ => () := by
      cases hCompile : s.compile with
      | error error => rw [offer_of_error hCompile]; rfl
      | ok t => rw [offer_of_ok hCompile]; rfl
    rw [List.map_cons, ← hAnswer, ← ih (e.offer s).2]
    rfl

end TemplateEngine

/-- Rendering a template fails for want of a variable, and for nothing else. -/
theorem Template.render_ne_notFound (t : Template) (context : Json) (name : String) :
    t.render context ≠ .error (.notFound name) := by
  rw [Template.render]
  cases renderNodes context t.nodes <;> simp [Except.mapError]

open TemplateEngine in
/--
**An engine holds the last source of a name that compiles.** After any calls, of which some may have
been refused, a name leads to the template of its last source that compiles, or to nothing if none
does. The names stand, each once, in the order of their first sources that compile. Every call is
answered for its own source alone; one that is refused leaves the engine as it was. A name that is
held is rendered by its template, and the others are those that are not found.
-/
theorem engine_holds_last_compiled (sources : List NamedSource) :
    let e := (empty.addAll sources).2
    (∀ name t, e.find? name = some t ↔
      ∃ before s after, sources = before ++ s :: after ∧ s.name = name ∧
        (Template.parse name s.text = .ok t.nodes ∧ t.name = name ∧ t.source = s.text) ∧
        ∀ later ∈ after, later.name = name → later.compiles = false) ∧
    (∀ name, e.find? name = none ↔ ∀ s ∈ sources, s.name = name → s.compiles = false) ∧
    (∀ name, name ∈ e.names ↔ ∃ t, e.find? name = some t) ∧ e.names.Nodup ∧
    e.names = ((sources.filter (·.compiles)).map (·.name)).eraseDups ∧
    (empty.addAll sources).1 = sources.map (fun s => s.compile.map fun _ => ()) ∧
    (∀ s error, s.compile = .error error →
      empty.addAll (sources ++ [s]) = ((empty.addAll sources).1 ++ [.error error], e)) ∧
    (∀ name t context, e.find? name = some t → e.render name context = t.render context) ∧
    ∀ name other context,
      e.render name context = .error (.notFound other) ↔ other = name ∧ name ∉ e.names := by
  intro e
  have hReflects : e.Reflects sources := reflects_addAll sources
  have hHeld (name : String) : name ∈ e.names ↔ ∃ t, e.find? name = some t := by
    rw [← Option.ne_none_iff_exists', Ne, find?, Named.find?_eq_none_iff, Decidable.not_not]
    rfl
  have hRender (name : String) (t : Template) (context : Json) (hFind : e.find? name = some t) :
      e.render name context = t.render context := by rw [render, hFind]
  refine ⟨fun name t => ?_, fun name => ?_, hHeld, hReflects.nodup, hReflects.names,
    answers_addAll _ _, fun s error hCompile => ?_, hRender, fun name other context => ?_⟩
  · rw [hReflects.find?, lastCompiled_eq_some_iff]
    refine exists_congr fun before => exists_congr fun s => exists_congr fun after => ?_
    refine and_congr_right fun _ => and_congr_right fun hName => and_congr_left fun _ => ?_
    rw [NamedSource.compile, Template.compile_eq_ok_iff, hName]
  · rw [hReflects.find?, lastCompiled_eq_none_iff]
  · rw [addAll_concat, offer_of_error hCompile]
  · rw [hHeld]
    cases hFind : e.find? name with
    | none =>
      rw [render, hFind]
      simp [eq_comm]
    | some t =>
      rw [hRender name t context hFind]
      exact iff_of_false (t.render_ne_notFound context other) fun h => h.2 ⟨t, rfl⟩

end RuleBlocks
