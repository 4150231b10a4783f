/-!
# Splitting at a separator

The parts of a text between the places where one character stands. There is always one part more
than there are separators, and joining the parts again gives the text back.
-/

set_option autoImplicit false

namespace Chassis.Text

def split (separator : Char) : List Char → List (List Char)
  | [] => [[]]
  | c :: cs =>
    match split separator cs with
    | [] => [[c]]
    | part :: parts => if c = separator then [] :: part :: parts else (c :: part) :: parts

/-- The parts of a text between the separators. -/
def splitText (separator : Char) (s : String) : List String :=
  (split separator s.toList).map String.ofList

/-- A text has at least one part. -/
theorem split_ne_nil (separator : Char) (cs : List Char) : split separator cs ≠ [] := by
  cases cs with
  | nil => simp [split]
  | cons c cs =>
    unfold split
    split
    · simp
    · split <;> simp

/-- A character in front goes to the first part, or starts the parts anew if it is the separator. -/
theorem split_cons (separator c : Char) (cs : List Char) :
    ∃ part parts, split separator cs = part :: parts ∧
      split separator (c :: cs) =
        if c = separator then [] :: part :: parts else (c :: part) :: parts := by
  obtain ⟨part, parts, h⟩ := List.exists_cons_of_ne_nil (split_ne_nil separator cs)
  exact ⟨part, parts, h, by simp [split, h]⟩

/-- A text without the separator is one part. -/
theorem split_of_not_mem {separator : Char} {cs : List Char} (h : separator ∉ cs) :
    split separator cs = [cs] := by
  induction cs with
  | nil => rfl
  | cons c cs ih =>
    rw [split, ih (List.not_mem_of_not_mem_cons h)]
    exact if_neg (List.ne_of_not_mem_cons h).symm

/-- The parts with the separator between them are the text. -/
theorem intercalate_split (separator : Char) (cs : List Char) :
    [separator].intercalate (split separator cs) = cs := by
  induction cs with
  | nil => rfl
  | cons c cs ih =>
    obtain ⟨part, parts, h, hc⟩ := split_cons separator c cs
    rw [hc]
    rw [h] at ih
    by_cases hs : c = separator
    · subst hs
      rw [if_pos rfl]
      simpa [List.intercalate, List.intersperse] using ih
    · rw [if_neg hs]
      cases parts with
      | nil => simpa [List.intercalate, List.intersperse] using ih
      | cons part' parts => simpa [List.intercalate, List.intersperse] using ih

/-- A separator parts what stands before it from what stands after it. -/
theorem split_append_cons (separator : Char) (cs ds : List Char) :
    split separator (cs ++ separator :: ds) = split separator cs ++ split separator ds := by
  induction cs with
  | nil =>
    obtain ⟨part, parts, h, hsep⟩ := split_cons separator separator ds
    rw [List.nil_append, hsep, if_pos rfl, h]
    rfl
  | cons c cs ih =>
    obtain ⟨part, parts, h, hc⟩ := split_cons separator c cs
    obtain ⟨part', parts', h', hc'⟩ := split_cons separator c (cs ++ separator :: ds)
    rw [ih, h, List.cons_append] at h'
    obtain ⟨rfl, rfl⟩ := List.cons.inj h'
    rw [List.cons_append, hc', hc]
    split <;> rfl

/-- The last part is the whole text, or what stands after the last separator. -/
theorem split_cases (separator : Char) (cs : List Char) :
    separator ∉ cs ∧ split separator cs = [cs] ∨
      ∃ before last, cs = before ++ separator :: last ∧
        split separator cs = split separator before ++ [last] := by
  by_cases hmem : separator ∈ cs
  case neg => exact .inl ⟨hmem, split_of_not_mem hmem⟩
  obtain ⟨last, before, hcs, hlast⟩ := List.eq_append_cons_of_mem (List.mem_reverse.2 hmem)
  have hcs' : cs = before.reverse ++ separator :: last.reverse := by
    simpa using congrArg List.reverse hcs
  refine .inr ⟨before.reverse, last.reverse, hcs', ?_⟩
  rw [hcs', split_append_cons, split_of_not_mem (mt List.mem_reverse.1 hlast)]

end Chassis.Text
