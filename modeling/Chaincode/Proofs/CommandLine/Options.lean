import Mathlib.Data.List.Infix
import Mathlib.Data.List.TakeWhile
import Chaincode.CommandLine

/-!
# What a command line gives

An option is given with its value behind an equals sign or in the next argument. If an argument list is
read as a start, the options read are exactly those that it gives (`get_eq_some_iff`); an argument list
that gives one twice is refused.
-/

namespace Chaincode.CommandLine

/-- The argument list gives a value to an option. -/
def Gives (args : List String) (name : OptionName) (value : String) : Prop :=
  "--" ++ name.text ++ "=" ++ value ∈ args ∨ ["--" ++ name.text, value] <:+: args

variable {args rest : List String} {name : OptionName} {text value : String}

theorem gives_nil : ¬ Gives [] name value := by
  simp [Gives]

/-! ## Arguments -/

namespace OptionName

theorem eq_of_ofText? (h : ofText? text = some name) : text = name.text := by
  have hfound := List.find?_some h
  simpa [eq_comm] using hfound

@[simp] theorem ofText?_text (name : OptionName) : ofText? name.text = some name := by
  cases name <;> decide

theorem not_mem_text (name : OptionName) : '=' ∉ name.text.toList := by
  cases name <;> decide

theorem text_inj {name name' : OptionName} (h : name.text = name'.text) : name = name' := by
  have hsame := ofText?_text name
  rw [h, ofText?_text] at hsame
  exact (Option.some.inj hsame).symm

end OptionName

namespace Argument

theorem ofText_option (name : OptionName) : ofText ("--" ++ name.text) = .long name.text none := by
  cases name <;> decide

theorem ofText_assignment (name : OptionName) (value : String) :
    ofText ("--" ++ name.text ++ "=" ++ value) = .long name.text (some value) := by
  have hlist : ("--" ++ name.text ++ "=" ++ value).toList =
      '-' :: '-' :: (name.text.toList ++ '=' :: value.toList) := by
    simp
  have hname : ∀ c ∈ name.text.toList, decide (c ≠ '=') = true := by
    intro c hc
    refine decide_eq_true ?_
    rintro rfl
    exact name.not_mem_text hc
  have htake : (name.text.toList ++ '=' :: value.toList).takeWhile (· ≠ '=') = name.text.toList := by
    rw [List.takeWhile_append_of_pos hname]
    simp
  have hdrop : (name.text.toList ++ '=' :: value.toList).dropWhile (· ≠ '=') =
      '=' :: value.toList := by
    rw [List.dropWhile_append_of_pos hname]
    simp
  have hrest : name.text.toList ++ '=' :: value.toList ≠ [] := by simp
  generalize name.text.toList ++ '=' :: value.toList = rest at hlist htake hdrop hrest
  cases rest with
  | nil => exact absurd rfl hrest
  | cons c cs => simp only [ofText, hlist, htake, hdrop, String.ofList_toList]

theorem long_parts {name : String} {value? : Option String} (h : ofText text = .long name value?) :
    ∃ rest, text.toList = '-' :: '-' :: rest ∧ name = String.ofList (rest.takeWhile (· ≠ '=')) ∧
      value? = (rest.dropWhile (· ≠ '=')).tail?.map String.ofList := by
  rw [ofText] at h
  split at h
  · cases h
  · rename_i rest hnonempty hlist
    refine ⟨rest, hlist, ?_⟩
    simp only at h
    split at h
    · rename_i hdrop
      cases h
      exact ⟨rfl, by rw [hdrop]; rfl⟩
    · rename_i hdrop
      cases h
      exact ⟨rfl, by rw [hdrop]; rfl⟩
  · cases h
  · cases h

theorem eq_option {name : String} (h : ofText text = .long name none) : text = "--" ++ name := by
  obtain ⟨rest, hlist, rfl, hvalue⟩ := long_parts h
  have hparts := List.takeWhile_append_dropWhile (p := (· ≠ '=')) (l := rest)
  cases hdrop : rest.dropWhile (· ≠ '=') with
  | cons c value =>
    rw [hdrop] at hvalue
    cases hvalue
  | nil =>
    rw [hdrop, List.append_nil] at hparts
    rw [hparts, ← String.toList_inj, hlist]
    simp

theorem eq_assignment {name : String} (h : ofText text = .long name (some value)) :
    text = "--" ++ name ++ "=" ++ value := by
  obtain ⟨rest, hlist, rfl, hvalue⟩ := long_parts h
  have hparts := List.takeWhile_append_dropWhile (p := (· ≠ '=')) (l := rest)
  have hequals := List.head?_dropWhile_not (· ≠ '=') rest
  cases hdrop : rest.dropWhile (· ≠ '=') with
  | nil =>
    rw [hdrop] at hvalue
    cases hvalue
  | cons c more =>
    rw [hdrop] at hvalue hparts hequals
    cases hvalue
    obtain rfl : c = '=' := by simpa using hequals
    generalize rest.takeWhile (· ≠ '=') = front at hparts ⊢
    rw [← String.toList_inj, hlist, ← hparts]
    simp

theorem ofText_eq_option_iff :
    ofText text = .long name.text none ↔ text = "--" ++ name.text := by
  constructor
  · exact eq_option
  · rintro rfl
    exact ofText_option name

theorem ofText_eq_assignment_iff :
    ofText text = .long name.text (some value) ↔ text = "--" ++ name.text ++ "=" ++ value := by
  constructor
  · exact eq_assignment
  · rintro rfl
    exact ofText_assignment name value

end Argument

theorem gives_cons : Gives (text :: rest) name value ↔
    Argument.ofText text = .long name.text (some value) ∨
      (Argument.ofText text = .long name.text none ∧ rest.head? = some value) ∨
      Gives rest name value := by
  have hfront : ["--" ++ name.text, value] <+: text :: rest ↔
      text = "--" ++ name.text ∧ rest.head? = some value := by
    rw [List.cons_prefix_cons, eq_comm]
    cases rest <;> simp [eq_comm]
  rw [Gives, Gives, List.mem_cons, List.infix_cons_iff, hfront, Argument.ofText_eq_option_iff,
    Argument.ofText_eq_assignment_iff, eq_comm]
  tauto

/-! ## Reading -/

namespace Options

variable {o o' : Options} {waiting : Option OptionName} {k : OptionName}

theorem get_of_assign (h : o.assign k text = .ok o') :
    o'.get name = some value ↔ o.get name = some value ∨ k = name ∧ text = value := by
  unfold assign at h
  split at h
  · cases h
  · rename_i hfree
    rw [Option.isSome_iff_ne_none, not_not] at hfree
    cases k with
    | config =>
      simp only at h
      split at h
      · cases h
      · cases h
        cases name <;> simp_all [get]
    | peerAddress | address =>
      cases h
      cases name <;> simp_all [get]

/-- The options read are those that were there before, the one that waited for its value, and those that
the arguments give. -/
theorem get_of_readFrom (h : o.readFrom waiting args = .ok (.start o')) :
    o'.get name = some value ↔ o.get name = some value ∨
      waiting = some name ∧ args.head? = some value ∨ Gives args name value := by
  induction args generalizing o waiting with
  | nil =>
    cases waiting with
    | some k => cases h
    | none =>
      cases h
      simp [gives_nil]
  | cons text rest ih =>
    rw [gives_cons]
    cases waiting with
    | some k =>
      -- the value of an option that waits is a plain argument
      cases hform : Argument.ofText text with
      | plain =>
        simp only [readFrom, hform] at h
        cases hassign : o.assign k text with
        | error fault =>
          rw [hassign] at h
          cases h
        | ok o₁ =>
          rw [hassign] at h
          rw [ih h, get_of_assign hassign]
          simp
          tauto
      | divider | short flag | long given value? =>
        simp only [readFrom, hform] at h
        cases h
    | none =>
      cases hform : Argument.ofText text with
      | plain =>
        simp only [readFrom, hform] at h
        cases h
      | divider =>
        simp only [readFrom, hform] at h
        cases rest with
        | nil =>
          cases h
          simp [gives_nil]
        | cons positional rest => cases h
      | short flag =>
        simp only [readFrom, hform] at h
        split at h
        · cases h
        · split at h <;> cases h
      | long given value? =>
        simp only [readFrom, hform] at h
        cases hknown : OptionName.ofText? given with
        | none =>
          cases value? with
          | some given' =>
            simp only [hknown] at h
            cases h
          | none =>
            simp only [hknown] at h
            split at h
            · cases h
            · split at h <;> cases h
        | some k =>
          obtain rfl := OptionName.eq_of_ofText? hknown
          have hsame : k.text = name.text ↔ k = name := ⟨OptionName.text_inj, congrArg _⟩
          cases value? with
          | none =>
            simp only [hknown] at h
            rw [ih h]
            simp [hsame]
          | some given' =>
            simp only [hknown] at h
            cases hassign : o.assign k given' with
            | error fault =>
              rw [hassign] at h
              cases h
            | ok o₁ =>
              rw [hassign] at h
              rw [ih h, get_of_assign hassign]
              simp [hsame]
              tauto

/-- **What is read is what is given.** -/
theorem get_eq_some_iff (h : read args = .ok (.start o)) :
    o.get name = some value ↔ Gives args name value := by
  rw [get_of_readFrom h]
  cases name <;> simp [get]

end Options

end Chaincode.CommandLine
