import RuleBlocks.Json.Printer

/-!
# Job ids

A job is named by twelve bytes that nobody chose, written as twenty-four hexadecimal digits in lower
case.

Main definition: `jobId`.
-/

namespace RuleBlocks

/-- The id that is made of the first twelve of some bytes. -/
def jobId (bytes : List UInt8) : String :=
  String.ofList <| (bytes.take 12).flatMap fun b =>
    [Json.hexDigit (b.toNat / 16), Json.hexDigit (b.toNat % 16)]

/-- An id has twenty-four characters. -/
theorem length_jobId (bytes : List UInt8) (h : 12 ≤ bytes.length) :
    (jobId bytes).toList.length = 24 := by
  have hl : (bytes.take 12).length = 12 := by simp [h]
  have : ∀ l : List UInt8, (l.flatMap fun b =>
      [Json.hexDigit (b.toNat / 16), Json.hexDigit (b.toNat % 16)]).length = 2 * l.length := by
    intro l
    induction l with
    | nil => rfl
    | cons b r ih => simp [ih]; omega
  simp only [jobId, String.toList_ofList, this, hl]

end RuleBlocks
