import Mathlib.Data.List.TakeWhile
import Chaincode.Settings

/-!
# White space around a text

Nothing is left of a text exactly if it is all white space (`trim_eq_empty_iff`). A trimmed text is what is
left between white space, and there is one such text (`trim_eq_iff`), so that white space around a text
makes no difference to what is left of it.
-/

namespace Chaincode.Text

variable {cs front back : List Char} {s t : String}

/-! ## Blank texts -/

/-- There is nothing but white space in the text. -/
def AllBlank (s : String) : Prop := ∀ c ∈ s.toList, isBlank c = true

instance (s : String) : Decidable (AllBlank s) :=
  List.decidableBAll (fun c => isBlank c = true) s.toList

theorem trimChars_eq_nil_iff (cs : List Char) :
    trimChars cs = [] ↔ ∀ c ∈ cs, isBlank c = true := by
  rw [trimChars, List.reverse_eq_nil_iff, List.dropWhile_eq_nil_iff]
  constructor
  · intro h c hc
    rw [← List.takeWhile_append_dropWhile (p := isBlank) (l := cs)] at hc
    rcases List.mem_append.1 hc with hfront | hrest
    · exact List.mem_takeWhile_imp hfront
    · exact h c (List.mem_reverse.2 hrest)
  · intro h c hc
    exact h c ((List.dropWhile_suffix _).subset (List.mem_reverse.1 hc))

theorem trim_eq_empty_iff : trim s = "" ↔ AllBlank s := by
  rw [trim, String.ofList_eq_empty_iff, trimChars_eq_nil_iff, AllBlank]

/-! ## Lists of characters -/

theorem dropWhile_isBlank (cs : List Char) : cs.dropWhile isBlank =
    trimChars cs ++ ((cs.dropWhile isBlank).reverse.takeWhile isBlank).reverse := by
  rw [trimChars, ← List.reverse_append, List.takeWhile_append_dropWhile, List.reverse_reverse]

theorem exists_trimChars (cs : List Char) : ∃ front back, cs = front ++ trimChars cs ++ back ∧
    (∀ c ∈ front, isBlank c = true) ∧ ∀ c ∈ back, isBlank c = true := by
  refine ⟨cs.takeWhile isBlank, ((cs.dropWhile isBlank).reverse.takeWhile isBlank).reverse, ?_, ?_, ?_⟩
  · rw [List.append_assoc, ← dropWhile_isBlank, List.takeWhile_append_dropWhile]
  · exact fun c hc => List.mem_takeWhile_imp hc
  · exact fun c hc => List.mem_takeWhile_imp (List.mem_reverse.1 hc)

theorem trimChars_append (hfront : ∀ c ∈ front, isBlank c = true) (hback : ∀ c ∈ back, isBlank c = true)
    (cs : List Char) : trimChars (front ++ cs ++ back) = trimChars cs := by
  rw [trimChars, trimChars, List.append_assoc, List.dropWhile_append_of_pos hfront, List.dropWhile_append]
  split
  · rename_i hblank
    rw [List.isEmpty_iff] at hblank
    rw [hblank, List.dropWhile_eq_nil_iff.2 hback]
  · rw [List.reverse_append, List.dropWhile_append_of_pos fun c hc => hback c (List.mem_reverse.1 hc)]

theorem head?_trimChars {c : Char} (h : (trimChars cs).head? = some c) : isBlank c = false := by
  have hnot := List.head?_dropWhile_not isBlank cs
  rw [dropWhile_isBlank, List.head?_append, h] at hnot
  simpa using hnot

theorem getLast?_trimChars {c : Char} (h : (trimChars cs).getLast? = some c) : isBlank c = false := by
  have hnot := List.head?_dropWhile_not isBlank (cs.dropWhile isBlank).reverse
  rw [trimChars, List.getLast?_reverse] at h
  rw [h] at hnot
  simpa using hnot

theorem trimChars_eq_self (hhead : ∀ c ∈ cs.head?, isBlank c = false)
    (hlast : ∀ c ∈ cs.getLast?, isBlank c = false) : trimChars cs = cs := by
  have hkeep : ∀ cs : List Char, (∀ c ∈ cs.head?, isBlank c = false) → cs.dropWhile isBlank = cs := by
    intro cs hhead
    cases cs with
    | nil => rfl
    | cons c cs => rw [List.dropWhile_cons_of_neg (by simp [hhead c rfl])]
  rw [trimChars, hkeep cs hhead, hkeep cs.reverse (by rwa [List.head?_reverse]), List.reverse_reverse]

/-! ## Texts -/

/-- The text neither begins nor ends with white space. -/
def Tight (s : String) : Prop :=
  (∀ c ∈ s.toList.head?, isBlank c = false) ∧ ∀ c ∈ s.toList.getLast?, isBlank c = false

/-- The second text is the first with nothing but white space around it. -/
def Padded (t s : String) : Prop := ∃ front back, s = front ++ t ++ back ∧ AllBlank front ∧ AllBlank back

theorem trim_of_padded (h : Padded t s) : trim s = trim t := by
  obtain ⟨front, back, rfl, hfront, hback⟩ := h
  rw [trim, trim, String.toList_append, String.toList_append, trimChars_append hfront hback]

theorem padded_trim (s : String) : Padded (trim s) s := by
  obtain ⟨front, back, hs, hfront, hback⟩ := exists_trimChars s.toList
  refine ⟨String.ofList front, String.ofList back, ?_, ?_, ?_⟩
  · rw [trim, ← String.ofList_append, ← String.ofList_append, ← hs, String.ofList_toList]
  · rwa [AllBlank, String.toList_ofList]
  · rwa [AllBlank, String.toList_ofList]

theorem tight_trim (s : String) : Tight (trim s) := by
  rw [Tight, trim, String.toList_ofList]
  exact ⟨fun c hc => head?_trimChars hc, fun c hc => getLast?_trimChars hc⟩

/-- **Trimming leaves the one text that is tight between white space.** -/
theorem trim_eq_iff : trim s = t ↔ Padded t s ∧ Tight t := by
  constructor
  · rintro rfl
    exact ⟨padded_trim s, tight_trim s⟩
  · rintro ⟨hpadded, hhead, hlast⟩
    rw [trim_of_padded hpadded, trim, trimChars_eq_self hhead hlast, String.ofList_toList]

end Chaincode.Text
