/-! Reading a text from its front. -/
namespace FragmentBuild

/-- What follows `word` at the front of a text. -/
def restAfter? [DecidableEq α] : List α → List α → Option (List α)
  | [], text => some text
  | _ :: _, [] => none
  | w :: word, c :: text => if w = c then restAfter? word text else none

theorem restAfter?_eq_some_iff [DecidableEq α] {word text rest : List α} :
    restAfter? word text = some rest ↔ text = word ++ rest := by
  induction word generalizing text with
  | nil => simp [restAfter?, eq_comm]
  | cons w word ih =>
    cases text with
    | nil => simp [restAfter?]
    | cons c text =>
      by_cases same : w = c
      · simp [restAfter?, same, ih]
      · simp [restAfter?, same, Ne.symm same]

end FragmentBuild
