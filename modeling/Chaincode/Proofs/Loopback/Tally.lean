import Mathlib.Data.List.Perm.Subperm
import Mathlib.Data.List.Range
import Mathlib.Order.Bounds.Basic
import Mathlib.Order.MinMax
import Chaincode.Proofs.Loopback.Steps

/-!
# What the record of a loopback tells

A run leaves a record: the actions, each with what it showed. The switches and counters of a loopback can
be read off it (`standing_run`), and so can the receives under way: those that are outstanding, started and
not gone (`perm_outstanding`).
-/

namespace Chaincode.Loopback

/-! ## Reading a record -/

/-- Has the action been taken? -/
def Happened (history : List (Action × Shown)) (a : Action) : Prop := a ∈ history.map (·.1)

def Action.isStart : Action → Bool
  | .start => true
  | _ => false

def Action.isCloseSend : Action → Bool
  | .closeSend => true
  | _ => false

/-- What the peer wants of the sends from here on. -/
def Action.failing? : Action → Option Bool
  | .failSends on => some on
  | _ => none

/-- The receive that goes. -/
def Shown.gone? : Shown → Option Nat
  | .received id _ => some id
  | _ => none

/-- The number of receives that have been started. -/
def starts (history : List (Action × Shown)) : Nat := history.countP (·.1.isStart)

/-- The number of times the sending direction has been ended. -/
def closes (history : List (Action × Shown)) : Nat := history.countP (·.1.isCloseSend)

/-- Do sends fail, by what the peer last said? -/
def Failing (history : List (Action × Shown)) : Prop :=
  (history.filterMap (·.1.failing?)).getLast? = some true

/-- The receives that have gone, with a result or without. -/
def gone (history : List (Action × Shown)) : List Nat := history.filterMap (·.2.gone?)

/-- The receives that have started and not gone. -/
def outstanding (history : List (Action × Shown)) : List Nat :=
  (List.range (starts history)).filter (· ∉ gone history)

variable {history : List (Action × Shown)} {l l' : Loopback} {a b : Action} {as : List Action} {s : Shown}
  {shown : List Shown}

theorem happened_concat : Happened (history ++ [(a, s)]) b ↔ Happened history b ∨ b = a := by
  simp [Happened]

theorem Happened.append (h : Happened history a) (later : List (Action × Shown)) :
    Happened (history ++ later) a := by
  rw [Happened, List.map_append]
  exact List.mem_append_left _ h

section

variable {α β : Type} (f : α → Option β) (xs : List α)

theorem filterMap_concat (x : α) : (xs ++ [x]).filterMap f = xs.filterMap f ++ (f x).toList := by
  cases h : f x <;> simp [h]

theorem filterMap_concat_none {x : α} (h : f x = none) : (xs ++ [x]).filterMap f = xs.filterMap f := by
  rw [filterMap_concat, h, Option.toList_none, List.append_nil]

end

theorem gone_concat_none (hs : s.gone? = none) : gone (history ++ [(a, s)]) = gone history :=
  filterMap_concat_none _ _ hs

theorem starts_concat : starts (history ++ [(a, s)]) = starts history + a.isStart.toNat := by
  cases h : a.isStart <;> simp [starts, h]

theorem closes_concat : closes (history ++ [(a, s)]) = closes history + a.isCloseSend.toNat := by
  cases h : a.isCloseSend <;> simp [closes, h]

theorem failing_concat (h : a.failing? = none) : Failing (history ++ [(a, s)]) ↔ Failing history := by
  have hsame : (history ++ [(a, s)]).filterMap (·.1.failing?) = history.filterMap (·.1.failing?) :=
    filterMap_concat_none _ _ h
  rw [Failing, hsame, Failing]

theorem failing_failSends (on : Bool) :
    Failing (history ++ [(.failSends on, s)]) ↔ on = true := by
  rw [Failing, filterMap_concat, Action.failing?, Option.toList_some, List.getLast?_concat,
    Option.some_inj]

theorem closes_pos_iff : 0 < closes history ↔ Happened history .closeSend := by
  rw [closes, List.countP_pos_iff, Happened, List.mem_map]
  constructor
  · rintro ⟨⟨a, s⟩, hmem, ha⟩
    refine ⟨(a, s), hmem, ?_⟩
    cases a with
    | closeSend => rfl
    | _ => cases ha
  · rintro ⟨⟨a, s⟩, hmem, rfl⟩
    exact ⟨_, hmem, rfl⟩

/-! ## Switches and counters -/

/-- The switches and counters of a loopback say what has happened to it. -/
structure Standing (history : List (Action × Shown)) (l : Loopback) : Prop where
  hungUp : l.hungUp = true ↔ Happened history .hangUp
  peerGone : l.peerGone = true ↔ Happened history .dropPeer
  streamGone : l.streamGone = true ↔ Happened history .dropStream
  failing : l.failing = true ↔ Failing history
  receives : l.tally.receives = starts history
  closes : l.tally.closes = closes history

theorem standing_step (hstep : Steps l a s l') (h : Standing history l) :
    Standing (history ++ [(a, s)]) l' where
  hungUp := by cases hstep <;> simp [happened_concat, h.hungUp, start, closeSend, dropStream, hangUp,
    failSends, dropPeer]
  peerGone := by cases hstep <;> simp [happened_concat, h.peerGone, start, closeSend, dropStream, hangUp,
    failSends, dropPeer]
  streamGone := by cases hstep <;> simp [happened_concat, h.streamGone, start, closeSend, dropStream,
    hangUp, failSends, dropPeer]
  failing := by
    cases hstep with
    | failSends on => exact (failing_failSends on).symm
    | _ => exact h.failing.trans (failing_concat rfl).symm
  receives := by
    rw [starts_concat, ← h.receives]
    cases hstep <;> rfl
  closes := by
    rw [closes_concat, ← h.closes]
    cases hstep <;> rfl

theorem standing_run (hrun : run {} as = some (shown, l)) : Standing (as.zip shown) l := by
  refine run_induction ?_ (fun _ _ _ _ _ _ _ h hstep => standing_step hstep h) hrun
  constructor <;> simp [Happened, Failing, starts, closes]

/-! ## Receives by number -/

/-- Receives have numbers in the order of their start. Each that was started has gone or is under way. -/
def Numbers (history : List (Action × Shown)) (l : Loopback) : Prop :=
  (gone history ++ l.calls.map (·.id)).Perm (List.range l.tally.receives)

theorem numbers_step (hstep : Steps l a s l') (h : Numbers history l) :
    Numbers (history ++ [(a, s)]) l' := by
  rw [Numbers] at h
  cases hstep with
  | start hstream =>
    rw [Numbers, gone_concat_none rfl]
    simp only [start, List.map_cons, List.range_succ]
    exact List.perm_middle.trans ((h.cons _).trans (List.perm_append_singleton _ _).symm)
  | enter id before after hcalls | record id now before after hcalls | lineUp id before after hcalls
  | take id item rest waiting before after hnext hline hcalls | drop id before after hcalls
  | dropEarly id before after hcalls =>
    rw [Numbers, gone_concat_none rfl]
    simpa [hcalls] using h
  | leave id result before after hcalls =>
    rw [hcalls, List.map_append, List.map_cons] at h
    rw [Numbers, gone, filterMap_concat, ← gone]
    simp only [Shown.gone?, Option.toList_some, List.map_append, List.append_assoc,
      List.singleton_append]
    exact (List.perm_middle.symm.append_left _).trans h
  | _ =>
    rw [Numbers, gone_concat_none rfl]
    exact h

theorem numbers_run (hrun : run {} as = some (shown, l)) : Numbers (as.zip shown) l :=
  run_induction (by simp [Numbers, gone]) (fun _ _ _ _ _ _ _ h hstep => numbers_step hstep h) hrun

theorem Numbers.nodup (h : Numbers history l) : (gone history ++ l.calls.map (·.id)).Nodup :=
  h.nodup_iff.2 List.nodup_range

theorem Numbers.mem_calls (h : Numbers history l) {id : Nat} :
    id ∈ l.calls.map (·.id) ↔ id < l.tally.receives ∧ id ∉ gone history := by
  have hmem := h.mem_iff (a := id)
  have hdisjoint := (List.nodup_append.1 h.nodup).2.2
  rw [List.mem_append, List.mem_range] at hmem
  constructor
  · intro hid
    exact ⟨hmem.1 (.inr hid), fun hgone => hdisjoint id hgone id hid rfl⟩
  · rintro ⟨hlt, hgone⟩
    exact (hmem.2 hlt).resolve_left hgone

theorem Standing.perm_outstanding (h : Standing history l) (hnumbers : Numbers history l) :
    (outstanding history).Perm (l.calls.map (·.id)) := by
  have hids := (List.nodup_append.1 hnumbers.nodup).2.1
  refine (List.perm_ext_iff_of_nodup (List.nodup_range.filter _) hids).2 fun id => ?_
  rw [List.mem_filter, List.mem_range, decide_eq_true_eq, hnumbers.mem_calls, h.receives]

theorem perm_outstanding (hrun : run {} as = some (shown, l)) :
    (outstanding (as.zip shown)).Perm (l.calls.map (·.id)) :=
  (standing_run hrun).perm_outstanding (numbers_run hrun)

theorem length_outstanding (hrun : run {} as = some (shown, l)) :
    (outstanding (as.zip shown)).length = l.calls.length := by
  rw [(perm_outstanding hrun).length_eq, List.length_map]

theorem exists_run_of_prefix {earlier : List (Action × Shown)} (hrun : run {} as = some (shown, l))
    (hearlier : earlier <+: as.zip shown) :
    ∃ bs more l', run {} bs = some (more, l') ∧ earlier = bs.zip more := by
  have hle : earlier.length ≤ as.length := by
    have hzip := hearlier.length_le
    rw [List.length_zip] at hzip
    omega
  rw [← List.take_append_drop earlier.length as] at hrun hearlier
  obtain ⟨first, l', later, hfirst, -, rfl⟩ := run_append.1 hrun
  have hlength := length_of_run hfirst
  rw [List.zip_append hlength.symm] at hearlier
  have hsame : earlier.length = ((as.take earlier.length).zip first).length := by
    rw [List.length_zip, hlength, List.length_take]
    omega
  have hfront := List.prefix_of_prefix_length_le hearlier (List.prefix_append _ _) hsame.le
  exact ⟨_, first, l', hfirst, hfront.eq_of_length hsame⟩

end Chaincode.Loopback

/-!
## How many receives there were at once

A receive is outstanding from its start and inside from its entry until it has gone, with a result or
dropped. The loopback keeps the number of those inside (`counting_run`). The highest number there has ever
been of these is in the tally, or with a receive that has entered and not recorded what it saw
(`isGreatest_run`). At rest the receives inside are those outstanding (`AtRest.mem_inside_iff`), but on the
way there may have been more of these at once than were ever inside, if one went while another had started
and not entered. Otherwise the tally has their highest number too (`AtRest.isGreatest_outstanding`).
-/

namespace Chaincode.Loopback

/-! ### Outstanding receives -/

/-- The receive that enters. -/
def Action.entered? : Action → Option Nat
  | .enter id => some id
  | _ => none

/-- The receives that have entered and not gone. -/
def inside (history : List (Action × Shown)) : List Nat :=
  (history.filterMap (·.1.entered?)).filter (· ∉ gone history)

/-- The number of a receive that is in. -/
def Call.in? : Call → Option Nat
  | ⟨_, .counted⟩ => none
  | ⟨id, .entered _⟩ | ⟨id, .recorded⟩ | ⟨id, .inLine⟩ | ⟨id, .leaving _⟩ => some id

variable {history : List (Action × Shown)} {l l' : Loopback} {a : Action} {as : List Action} {s : Shown}
  {shown : List Shown} {id : Nat} {before after : List Call}

theorem entered_concat_none (h : a.entered? = none) :
    (history ++ [(a, s)]).filterMap (·.1.entered?) = history.filterMap (·.1.entered?) :=
  filterMap_concat_none _ _ h

theorem inside_concat_of_stays (hentered : a.entered? = none) (hgone : s.gone? = none) :
    inside (history ++ [(a, s)]) = inside history := by
  rw [inside, entered_concat_none hentered, gone_concat_none hgone, inside]

theorem inside_enter (hid : id ∉ gone history) :
    inside (history ++ [(.enter id, .nothing)]) = inside history ++ [id] := by
  rw [inside, filterMap_concat, gone_concat_none rfl, List.filter_append, inside]
  simp [Action.entered?, hid]

theorem inside_leave (result : Option Received) :
    inside (history ++ [(.leave id, .received id result)]) =
      (inside history).filter (· ≠ id) := by
  have hgone : gone (history ++ [(.leave id, .received id result)]) = gone history ++ [id] := by
    rw [gone, filterMap_concat, ← gone]
    rfl
  rw [inside, filterMap_concat, hgone, inside, List.filter_filter]
  simp only [Action.entered?, Option.toList_none, List.append_nil]
  refine List.filter_congr fun i _ => ?_
  by_cases hi : i = id <;> simp [hi]

theorem length_inside_concat (hentered : a.entered? = none) :
    (inside (history ++ [(a, s)])).length ≤ (inside history).length := by
  rw [inside, entered_concat_none hentered, inside]
  refine (List.monotone_filter_right _ fun i hi => ?_).length_le
  simp only [decide_eq_true_eq] at hi ⊢
  exact fun hgone => hi (by
    rw [gone, List.filterMap_append]
    exact List.mem_append_left _ hgone)

theorem filterMap_in_sublist (calls : List Call) :
    (calls.filterMap (·.in?)).Sublist (calls.map (·.id)) := by
  induction calls with
  | nil => exact .slnil
  | cons c calls ih =>
    obtain ⟨id, progress⟩ := c
    cases progress with
    | counted => exact ih.cons id
    | _ => exact ih.cons_cons id

/-! ### The number that is kept -/

/-- The loopback keeps the number of inside receives. -/
structure Counting (history : List (Action × Shown)) (l : Loopback) : Prop where
  inside : (inside history).Perm (l.calls.filterMap (·.in?))
  underWay : l.tally.underWay = (l.calls.filterMap (·.in?)).length

theorem counting_step (hs : Sound l) (hnumbers : Numbers history l) (hstep : Steps l a s l')
    (h : Counting history l) : Counting (history ++ [(a, s)]) l' := by
  obtain ⟨hperm, hunder⟩ := h
  have hids := hs.ids
  cases hstep with
  | enter id before after hcalls =>
    have hmem : id ∈ l.calls.map (·.id) := by simp [hcalls]
    rw [hcalls, filterMap_middle_none Call.in? rfl, List.filterMap_append] at hperm hunder
    constructor
    · rw [inside_enter (hnumbers.mem_calls.1 hmem).2, filterMap_middle_some Call.in? rfl]
      exact (List.perm_append_singleton _ _).trans ((hperm.cons id).trans List.perm_middle.symm)
    · rw [filterMap_middle_some Call.in? rfl, List.length_append, List.length_cons, ← Nat.add_assoc,
        ← List.length_append, ← hunder]
  | record id now before after hcalls | lineUp id before after hcalls
  | take id item rest waiting before after hnext hline hcalls | drop id before after hcalls
  | dropEarly id before after hcalls =>
    rw [hcalls, filterMap_middle_some Call.in? rfl] at hperm hunder
    constructor
    · rw [inside_concat_of_stays rfl rfl, filterMap_middle_some Call.in? rfl]
      exact hperm
    · rw [filterMap_middle_some Call.in? rfl]
      exact hunder
  | leave id result before after hcalls =>
    rw [hcalls, filterMap_middle_some Call.in? rfl] at hperm hunder
    rw [hcalls, List.map_append, List.map_cons, List.nodup_middle, List.nodup_cons] at hids
    -- no other receive has the number of the one that goes
    have hother : id ∉ (before ++ after).filterMap (·.in?) := fun hid =>
      hids.1 (by simpa using (filterMap_in_sublist _).subset hid)
    constructor
    · rw [inside_leave]
      refine ((hperm.trans List.perm_middle).filter _).trans (List.Perm.of_eq ?_)
      rw [List.filter_cons_of_neg (by simp), ← List.filterMap_append, List.filter_eq_self]
      intro i hi
      rw [decide_eq_true_eq]
      rintro rfl
      exact hother hi
    · rw [hunder, List.length_append, List.length_cons, ← Nat.add_assoc, Nat.add_sub_cancel,
        ← List.length_append, ← List.filterMap_append]
  | _ => exact ⟨by rw [inside_concat_of_stays rfl rfl]; exact hperm, hunder⟩

theorem counting_run (hrun : run {} as = some (shown, l)) : Counting (as.zip shown) l := by
  refine run_induction ?_ (fun as shown l a s l' hbefore h hstep => ?_) hrun
  · constructor <;> simp [inside]
  · exact counting_step (sound_run .fresh hbefore) (numbers_run hbefore) hstep h

/-! ### The highest number -/

/-- What a receive has seen and not recorded. -/
def Call.unrecorded : Call → Nat
  | ⟨_, .entered now⟩ => now
  | _ => 0

/-- The highest of `n` and what receives have seen and not recorded. -/
def top (n : Nat) (calls : List Call) : Nat := calls.foldr (fun c n => max c.unrecorded n) n

/-- The highest number that was ever seen, recorded or not. -/
def highest (l : Loopback) : Nat := top l.tally.mostUnderWay l.calls

/-- How many there have been at once, at any time, of some of the receives. -/
def atOnce (some : List (Action × Shown) → List Nat) (history : List (Action × Shown)) : Set Nat :=
  {n | ∃ earlier, earlier <+: history ∧ (some earlier).length = n}

theorem top_middle (n : Nat) (c : Call) :
    top n (before ++ c :: after) = max c.unrecorded (top n (before ++ after)) := by
  induction before with
  | nil => rfl
  | cons d before ih =>
    rw [List.cons_append, top, List.foldr_cons, ← top, ih, max_left_comm]
    rfl

theorem top_middle_none {c : Call} (n : Nat) (hc : c.unrecorded = 0) :
    top n (before ++ c :: after) = top n (before ++ after) := by
  rw [top_middle, hc, Nat.zero_max]

theorem le_top (n : Nat) (calls : List Call) : n ≤ top n calls := by
  induction calls with
  | nil => exact Nat.le_refl n
  | cons c calls ih => exact ih.trans (le_max_right _ _)

theorem top_max (m n : Nat) (calls : List Call) : top (max m n) calls = max n (top m calls) := by
  induction calls with
  | nil => exact max_comm m n
  | cons c calls ih =>
    rw [top, List.foldr_cons, ← top, ih, max_left_comm]
    rfl

theorem isGreatest_concat {n : Nat} (h : IsGreatest (atOnce inside history) n) :
    IsGreatest (atOnce inside (history ++ [(a, s)]))
      (max n (inside (history ++ [(a, s)])).length) := by
  constructor
  · rcases max_choice n (inside (history ++ [(a, s)])).length with hmax | hmax
    · obtain ⟨earlier, hearlier, hn⟩ := h.1
      exact ⟨earlier, hearlier.trans (List.prefix_append _ _), hn.trans hmax.symm⟩
    · exact ⟨_, List.prefix_rfl, hmax.symm⟩
  · rintro k ⟨earlier, hearlier, rfl⟩
    rcases List.prefix_concat_iff.1 hearlier with rfl | hearlier
    · exact le_max_right _ _
    · exact (h.2 ⟨earlier, hearlier, rfl⟩).trans (le_max_left _ _)

theorem isGreatest_of_stays {n : Nat} (hentered : a.entered? = none) (h : IsGreatest (atOnce inside history) n) :
    IsGreatest (atOnce inside (history ++ [(a, s)])) n := by
  have hle : (inside (history ++ [(a, s)])).length ≤ n :=
    (length_inside_concat hentered).trans (h.2 ⟨history, List.prefix_rfl, rfl⟩)
  have hconcat := isGreatest_concat (a := a) (s := s) h
  rwa [max_eq_left hle] at hconcat

theorem isGreatest_step (hcounting' : Counting (history ++ [(a, s)]) l') (hstep : Steps l a s l')
    (h : IsGreatest (atOnce inside history) l.highest) :
    IsGreatest (atOnce inside (history ++ [(a, s)])) l'.highest := by
  cases hstep with
  | start hstream =>
    refine isGreatest_of_stays rfl ?_
    rw [highest, start, ← List.nil_append (_ :: _), top_middle_none _ rfl]
    exact h
  | enter id before after hcalls =>
    -- what the receive sees is the number of those inside, itself among them
    have hnow : l.tally.underWay + 1 = _ :=
      hcounting'.underWay.trans hcounting'.inside.length_eq.symm
    have hgreatest := isGreatest_concat (a := .enter id) (s := .nothing) h
    rw [highest, hcalls, top_middle_none _ rfl, ← hnow, max_comm] at hgreatest
    rw [highest, top_middle]
    exact hgreatest
  | record id now before after hcalls =>
    refine isGreatest_of_stays rfl ?_
    rw [highest, hcalls, top_middle] at h
    rw [highest, top_middle_none _ rfl, top_max]
    exact h
  | lineUp id before after hcalls | take id item rest waiting before after hnext hline hcalls
  | drop id before after hcalls | dropEarly id before after hcalls =>
    refine isGreatest_of_stays rfl ?_
    rw [highest, hcalls, top_middle_none _ rfl] at h
    rw [highest, top_middle_none _ rfl]
    exact h
  | leave id result before after hcalls =>
    refine isGreatest_of_stays rfl ?_
    rw [highest, hcalls, top_middle_none _ rfl] at h
    exact h
  | _ => exact isGreatest_of_stays rfl h

theorem isGreatest_run (hrun : run {} as = some (shown, l)) :
    IsGreatest (atOnce inside (as.zip shown)) l.highest := by
  refine run_induction (P := fun history l => IsGreatest (atOnce inside history) l.highest) ?_
    (fun as shown l a s l' hbefore h hstep => ?_) hrun
  · refine ⟨⟨[], List.prefix_rfl, rfl⟩, ?_⟩
    rintro k ⟨earlier, hearlier, rfl⟩
    rw [List.prefix_nil.1 hearlier]
    exact Nat.le_refl 0
  · exact isGreatest_step (counting_step (sound_run .fresh hbefore) (numbers_run hbefore) hstep
      (counting_run hbefore)) hstep h

/-! ### At rest -/

/-- Is the receive about to count itself or to record what it saw? -/
def Progress.isCounting : Progress → Bool
  | .counted | .entered _ => true
  | .recorded | .inLine | .leaving _ => false

/-- Is no receive in the middle of its entry? -/
def AtRest (l : Loopback) : Prop := ∀ c ∈ l.calls, c.progress.isCounting = false

theorem top_of_rest {calls : List Call} (h : ∀ c ∈ calls, c.progress.isCounting = false) (n : Nat) :
    top n calls = n := by
  induction calls with
  | nil => rfl
  | cons c calls ih =>
    have hc : c.unrecorded = 0 := by
      obtain ⟨id, progress⟩ := c
      cases progress with
      | entered now => cases h ⟨id, .entered now⟩ List.mem_cons_self
      | _ => rfl
    rw [top, List.foldr_cons, hc, Nat.zero_max, ← top, ih fun c hc => h c (List.mem_cons_of_mem _ hc)]

theorem filterMap_in_of_rest {calls : List Call} (h : ∀ c ∈ calls, c.progress.isCounting = false) :
    calls.filterMap (·.in?) = calls.map (·.id) := by
  induction calls with
  | nil => rfl
  | cons c calls ih =>
    have hc : c.in? = some c.id := by
      obtain ⟨id, progress⟩ := c
      cases progress with
      | counted => cases h ⟨id, .counted⟩ List.mem_cons_self
      | _ => rfl
    rw [List.filterMap_cons_some hc, List.map_cons, ih fun c hc => h c (List.mem_cons_of_mem _ hc)]

theorem AtRest.isGreatest (h : AtRest l) (hrun : run {} as = some (shown, l)) :
    IsGreatest (atOnce inside (as.zip shown)) l.tally.mostUnderWay := by
  have hgreatest := isGreatest_run hrun
  rwa [highest, top_of_rest h] at hgreatest

/-! ### Outstanding receives -/

theorem subset_outstanding (hrun : run {} as = some (shown, l)) :
    inside (as.zip shown) ⊆ outstanding (as.zip shown) := by
  intro id hid
  have hin := (counting_run hrun).inside.mem_iff.1 hid
  exact (perm_outstanding hrun).mem_iff.2 ((filterMap_in_sublist _).subset hin)

theorem length_inside_le (hrun : run {} as = some (shown, l)) :
    (inside (as.zip shown)).length ≤ (outstanding (as.zip shown)).length := by
  rw [(counting_run hrun).inside.length_eq, (perm_outstanding hrun).length_eq]
  exact (filterMap_in_sublist _).length_le

theorem AtRest.mem_inside_iff (h : AtRest l) (hrun : run {} as = some (shown, l)) :
    id ∈ inside (as.zip shown) ↔ id ∈ outstanding (as.zip shown) := by
  rw [(counting_run hrun).inside.mem_iff, filterMap_in_of_rest h, (perm_outstanding hrun).mem_iff]

theorem mostUnderWay_le {n : Nat} (hrun : run {} as = some (shown, l))
    (hn : n ∈ upperBounds (atOnce outstanding (as.zip shown))) : l.tally.mostUnderWay ≤ n := by
  obtain ⟨⟨earlier, hearlier, hlength⟩, -⟩ := isGreatest_run hrun
  obtain ⟨bs, more, t, hbefore, rfl⟩ := exists_run_of_prefix hrun hearlier
  calc l.tally.mostUnderWay ≤ l.highest := le_top _ _
    _ = (inside (bs.zip more)).length := hlength.symm
    _ ≤ (outstanding (bs.zip more)).length := length_inside_le hbefore
    _ ≤ n := hn ⟨_, hearlier, rfl⟩

/-- No receive goes while another has started and not entered. -/
def Prompt (history : List (Action × Shown)) : Prop :=
  ∀ earlier a s, earlier ++ [(a, s)] <+: history → s.gone? ≠ none → outstanding earlier ⊆ inside earlier

theorem Prompt.of_append {later : List (Action × Shown)} (h : Prompt (history ++ later)) :
    Prompt history :=
  fun earlier a s hearlier => h earlier a s (hearlier.trans (List.prefix_append _ _))

theorem highest_le_of_step (hbefore : run {} as = some (shown, l)) (hstep : Steps l a s l') :
    l.highest ≤ l'.highest := by
  have hcounting := counting_step (sound_run .fresh hbefore) (numbers_run hbefore) hstep (counting_run hbefore)
  have hgreatest := isGreatest_run hbefore
  refine hgreatest.mono (isGreatest_step hcounting hstep hgreatest) ?_
  rintro n ⟨earlier, hearlier, hn⟩
  exact ⟨earlier, hearlier.trans (List.prefix_append _ _), hn⟩

theorem length_calls_le_of_step (hstep : Steps l a s l') (hstays : s.gone? = none) :
    l.calls.length ≤ l'.calls.length := by
  cases hstep with
  | start hstream => exact Nat.le_succ _
  | enter id before after hcalls | record id now before after hcalls | lineUp id before after hcalls
  | take id item rest waiting before after hnext hline hcalls | drop id before after hcalls
  | dropEarly id before after hcalls =>
    rw [hcalls]
    simp
  | leave id result before after hcalls => cases hstays
  | _ => exact Nat.le_refl _

/-- If receives are prompt, then however many were outstanding at once, as many have been seen, or are still
under way. -/
theorem Prompt.le_run (hrun : run {} as = some (shown, l)) (hprompt : Prompt (as.zip shown)) {n : Nat}
    (hn : n ∈ atOnce outstanding (as.zip shown)) : n ≤ max l.highest l.calls.length := by
  refine run_induction (P := fun history l => Prompt history → ∀ n ∈ atOnce outstanding history,
    n ≤ max l.highest l.calls.length) ?_ (fun as shown l a s l' hbefore h hstep hprompt n hn => ?_) hrun
    hprompt n hn
  · rintro - n ⟨earlier, hearlier, rfl⟩
    rw [List.prefix_nil.1 hearlier]
    exact Nat.zero_le _
  · have hhighest := highest_le_of_step hbefore hstep
    obtain ⟨earlier, hearlier, rfl⟩ := hn
    rcases List.prefix_concat_iff.1 hearlier with rfl | hearlier
    · have hperm := (standing_step hstep (standing_run hbefore)).perm_outstanding
        (numbers_step hstep (numbers_run hbefore))
      rw [hperm.length_eq, List.length_map]
      exact le_max_right _ _
    · have hle := h hprompt.of_append _ ⟨earlier, hearlier, rfl⟩
      cases hstays : s.gone? with
      | none => exact hle.trans (max_le_max hhighest (length_calls_le_of_step hstep hstays))
      | some id =>
        -- before the receive goes all that are under way are inside, so that so many have been seen
        have hinside := hprompt _ a s List.prefix_rfl (by simp [hstays])
        have hseen : l.calls.length ≤ l.highest := by
          rw [← length_outstanding hbefore]
          exact ((List.nodup_range.filter _).subperm hinside).length_le.trans
            ((isGreatest_run hbefore).2 ⟨_, List.prefix_rfl, rfl⟩)
        rw [max_eq_left hseen] at hle
        exact hle.trans (hhighest.trans (le_max_left _ _))

theorem AtRest.isGreatest_outstanding (h : AtRest l) (hrun : run {} as = some (shown, l))
    (hprompt : Prompt (as.zip shown)) :
    IsGreatest (atOnce outstanding (as.zip shown)) l.tally.mostUnderWay := by
  have hgreatest := h.isGreatest hrun
  have hupper : l.tally.mostUnderWay ∈ upperBounds (atOnce outstanding (as.zip shown)) := by
    intro n hn
    have hle := hprompt.le_run hrun hn
    have hnow : l.calls.length ≤ l.tally.mostUnderWay := by
      have hinside := hgreatest.2 ⟨_, List.prefix_rfl, rfl⟩
      rwa [(counting_run hrun).inside.length_eq, filterMap_in_of_rest h, List.length_map] at hinside
    rwa [highest, top_of_rest h, max_eq_left hnow] at hle
  obtain ⟨⟨earlier, hearlier, hlength⟩, -⟩ := hgreatest
  obtain ⟨bs, more, t, hbefore, rfl⟩ := exists_run_of_prefix hrun hearlier
  refine ⟨⟨_, hearlier, le_antisymm (hupper ⟨_, hearlier, rfl⟩) ?_⟩, hupper⟩
  rw [← hlength]
  exact length_inside_le hbefore

end Chaincode.Loopback
