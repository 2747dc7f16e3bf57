import Mathlib.Data.List.InsertIdx
import Mathlib.Data.List.Nodup
import Mathlib.Data.List.Perm.Basic
import Chaincode.Proofs.Conversation.Ledger

/-!
# The tasks of the echo handler

The echo handler starts one task for every invocation and every sign of life, and refuses what a peer
has no reason to send. Its tasks race with each other, with further messages and with the end of the
session. `Kept` is the invariant that accounts for every one of them: a message that is owed a reply is
about to get its task, or its task is under way, or its task has sent once and reported once. Every
move keeps it (`kept_move`), so it holds of every reachable conversation (`kept_run`).
-/

namespace Chaincode

namespace Envelope

/-- The reply that the echo chaincode owes to a message, if it owes one. -/
def reply? (m : Envelope) : Option Envelope :=
  match m.kind with
  | .init | .transaction => some { m with number := Kind.completed.number }
  | .keepalive => some m
  | _ => none

/-- The reason for which the echo chaincode refuses a message, if it does. -/
def refusal? (m : Envelope) : Option Refusal :=
  match m.kind with
  | .registered | .ready | .keepalive | .init | .transaction => none
  | kind => some (.ofText ("unexpected " ++ kind.name ++ " message from peer"))

theorem reply?_of_refusal? {m : Envelope} {r : Refusal} (h : m.refusal? = some r) :
    m.reply? = none := by
  unfold refusal? at h
  unfold reply?
  cases hkind : m.kind <;> simp [hkind] at h ⊢

end Envelope

theorem echoWork_eq (m : Envelope) : echoWork m =
    { effects := m.reply?.toList.map .spawn
      verdict := match m.refusal? with
        | none => .ok ()
        | some r => .error r } := by
  unfold echoWork Envelope.reply? Envelope.refusal?
  cases m.kind <;> rfl

/-- The message at a place among those dispatched is owed the reply `m`. -/
def Owed (dispatched : List Envelope) (i : Nat) (m : Envelope) : Prop :=
  dispatched[i]?.bind Envelope.reply? = some m

namespace Owed

variable {dispatched : List Envelope} {i : Nat} {m x : Envelope}

theorem lt (h : Owed dispatched i m) : i < dispatched.length := by
  obtain ⟨d, hd, -⟩ := Option.bind_eq_some_iff.1 h
  exact (List.getElem?_eq_some_iff.1 hd).1

theorem concat_iff : Owed (dispatched ++ [x]) i m ↔
    Owed dispatched i m ∨ i = dispatched.length ∧ x.reply? = some m := by
  unfold Owed
  rcases Nat.lt_trichotomy i dispatched.length with hi | hi | hi
  · rw [List.getElem?_append_left hi]
    constructor
    · exact .inl
    · rintro (h | ⟨rfl, -⟩)
      · exact h
      · omega
  · subst hi
    simp
  · have hnone : (dispatched ++ [x])[i]? = none := by
      rw [List.getElem?_eq_none_iff, List.length_append, List.length_singleton]
      omega
    have hnone' : dispatched[i]? = none := by
      rw [List.getElem?_eq_none_iff]
      omega
    rw [hnone, hnone']
    constructor
    · intro h
      cases h
    · rintro (h | ⟨rfl, -⟩)
      · cases h
      · omega

theorem concat (h : Owed dispatched i m) : Owed (dispatched ++ [x]) i m := concat_iff.2 (.inl h)

theorem of_last (hlast : dispatched.getLast? = some x) (hx : x.reply? = some m) :
    Owed dispatched (dispatched.length - 1) m := by
  rw [List.getLast?_eq_getElem?] at hlast
  rw [Owed, hlast]
  exact hx

end Owed

namespace Session

variable {s t : Session} {a : Action} {m : Envelope} {r : Refusal}

/-- The session has a message that is to be refused, or has ended for that. -/
def Refuses (s : Session) (m : Envelope) (r : Refusal) : Prop :=
  s.stage = .handling m ∨ s.stage = .closing (.rejected r) ∨ s.stage = .ended (.rejected r)

theorem Step.handling_iff (hstep : Step s a t) (htake : a ≠ .takeResult)
    (hanswer : ∀ verdict, a ≠ .answer verdict) :
    t.dispatched = s.dispatched ∧ ∀ m, t.stage = .handling m ↔ s.stage = .handling m := by
  cases hstep with
  | takeLast | takeMessage | missReader => exact absurd rfl htake
  | accept | reject => exact absurd rfl (hanswer _)
  | registered _ hs | refused _ _ hs | takeFault _ _ hs | drainFault _ _ hs | drained hs | grant hs
  | grantNobody hs | close _ _ hs => simp [hs, finish]
  | _ => exact ⟨rfl, fun _ => Iff.rfl⟩

theorem Step.refuses (hstep : Step s a t) (htake : a ≠ .takeResult)
    (hanswer : ∀ verdict, a ≠ .answer verdict) (h : s.Refuses m r) : t.Refuses m r := by
  rcases h with h | h
  · exact .inl ((hstep.handling_iff htake hanswer).2 m |>.2 h)
  · exact .inr (hstep.keeps_end h)

end Session

namespace Conversation

variable {S : Type} {c d : Conversation Unit S} {l : Ledger} {move : Move} {made : List Use}
  {i : Nat} {m : Envelope}

/-- The handler is about to start a task for the reply `m`. -/
def AboutTo (c : Conversation Unit S) (m : Envelope) : Prop :=
  (∃ x, c.session.stage = .handling x) ∧ c.work.effects = [.spawn m]

/-- How the handler stands with the message `x` that it has: it has not started on it, or is done with
all but its answer. -/
def AtWork (c : Conversation Unit S) (l : Ledger) (x : Envelope) : Prop :=
  (c.work = echoWork x ∧ c.session.dispatched.length - 1 ∉ l.known) ∨
    (c.work = {} ∧ x.refusal? = none)

/-- Every task answers a message of its own, every message that is owed a reply has had its task or is
about to, and only the last message can be one that is refused. -/
structure Kept (c : Conversation Unit S) (l : Ledger) : Prop where
  handler : c.handler.react = echo.react
  tasks : l.tasks.map (·.2) = c.tasks
  unsent : ∀ i m, (i, .unsent m) ∈ l.tasks →
    Owed c.session.dispatched i m ∧ i ∉ l.sends.map (·.1)
  unreported : ∀ i outcome, (i, .unreported outcome) ∈ l.tasks → ∃ m, (i, m, outcome) ∈ l.sends
  reported : ∀ i outcome, (i, outcome) ∈ l.reports → ∃ m, (i, m, outcome) ∈ l.sends
  sent : ∀ i m outcome, (i, m, outcome) ∈ l.sends →
    Owed c.session.dispatched i m ∧ i ∈ l.known
  sends_nodup : (l.sends.map (·.1)).Nodup
  known_nodup : l.known.Nodup
  all : ∀ i m, Owed c.session.dispatched i m →
    i ∈ l.known ∨ i + 1 = c.session.dispatched.length ∧ c.AboutTo m
  handling : ∀ x, c.session.stage = .handling x →
    c.session.dispatched.getLast? = some x ∧ c.AtWork l x
  refused : ∀ i x r, c.session.dispatched[i]? = some x → x.refusal? = some r →
    i + 1 = c.session.dispatched.length ∧ c.session.Refuses x r

theorem kept_start (name : String) (stream : S) : Kept (start name stream echo) {} := by
  constructor <;> simp [start, Session.start_eq, Ledger.known, Owed]

theorem Kept.of_same (h : Kept c l) (hhandler : d.handler = c.handler) (hwork : d.work = c.work)
    (htasks : d.tasks = c.tasks) (hd : d.session.dispatched = c.session.dispatched)
    (hstage : ∀ m, d.session.stage = .handling m ↔ c.session.stage = .handling m)
    (hrefuses : ∀ m r, c.session.Refuses m r → d.session.Refuses m r) : Kept d l where
  handler := by rw [hhandler, h.handler]
  tasks := by rw [htasks, h.tasks]
  unsent := by rw [hd]; exact h.unsent
  unreported := h.unreported
  reported := h.reported
  sent := by rw [hd]; exact h.sent
  sends_nodup := h.sends_nodup
  known_nodup := h.known_nodup
  all := by
    intro i m howed
    rw [hd] at howed ⊢
    simpa only [AboutTo, hstage, hwork] using h.all i m howed
  handling := by
    intro x hx
    have hold := h.handling x ((hstage x).1 hx)
    rw [AtWork, hwork, hd]
    exact hold
  refused := by
    intro i x r hi hx
    rw [hd] at hi ⊢
    obtain ⟨hlast, hr⟩ := h.refused i x r hi hx
    exact ⟨hlast, hrefuses x r hr⟩

/-! ### A message comes in -/

theorem Kept.places_lt (h : Kept c l) {i : Nat} (hi : i ∈ l.known) :
    i < c.session.dispatched.length := by
  have hsent : ∀ m outcome, (i, m, outcome) ∈ l.sends → i < c.session.dispatched.length :=
    fun m outcome hmem => (h.sent i m outcome hmem).1.lt
  rcases List.mem_append.1 hi with hi | hi
  · obtain ⟨⟨i, task⟩, hmem, rfl⟩ := List.mem_map.1 hi
    cases task with
    | unsent m => exact (h.unsent i m hmem).1.lt
    | unreported outcome =>
      obtain ⟨m, hm⟩ := h.unreported i outcome hmem
      exact hsent m outcome hm
  · obtain ⟨⟨i, outcome⟩, hmem, rfl⟩ := List.mem_map.1 hi
    obtain ⟨m, hm⟩ := h.reported i outcome hmem
    exact hsent m outcome hm

theorem Kept.not_refused (h : Kept c l) (hs : c.session.stage = .selecting) {x : Envelope}
    {r : Refusal} (hi : c.session.dispatched[i]? = some x) : x.refusal? ≠ some r := by
  intro hx
  obtain ⟨-, hr⟩ := h.refused i x r hi hx
  simp [Session.Refuses, hs] at hr

theorem kept_message (h : Kept c l) {x : Envelope} (hs : c.session.stage = .selecting)
    (hd : d.session.dispatched = c.session.dispatched ++ [x]) (hstage : d.session.stage = .handling x)
    (hhandler : d.handler.react = echo.react) (hwork : d.work = echoWork x)
    (htasks : d.tasks = c.tasks) : Kept d l where
  handler := hhandler
  tasks := by rw [htasks, h.tasks]
  unsent := by
    intro i m hmem
    rw [hd]
    exact (h.unsent i m hmem).imp_left Owed.concat
  unreported := h.unreported
  reported := h.reported
  sent := by
    intro i m outcome hmem
    rw [hd]
    exact (h.sent i m outcome hmem).imp_left Owed.concat
  sends_nodup := h.sends_nodup
  known_nodup := h.known_nodup
  all := by
    intro i m howed
    rw [hd] at howed ⊢
    rw [List.length_append, List.length_singleton]
    rcases Owed.concat_iff.1 howed with howed | ⟨rfl, hreply⟩
    · -- no task was about to be started, the handler having no message
      rcases h.all i m howed with hknown | ⟨-, ⟨y, hy⟩, -⟩
      · exact .inl hknown
      · cases hs.symm.trans hy
    · right
      refine ⟨rfl, ⟨x, hstage⟩, ?_⟩
      rw [hwork, echoWork_eq, hreply]
      rfl
  handling := by
    intro y hy
    cases hstage.symm.trans hy
    refine ⟨by rw [hd]; exact List.getLast?_concat, .inl ⟨hwork, fun hmem => ?_⟩⟩
    have hlt := h.places_lt hmem
    rw [hd, List.length_append, List.length_singleton] at hlt
    omega
  refused := by
    intro i y r hi hy
    rw [hd] at hi ⊢
    rw [List.length_append, List.length_singleton]
    by_cases hlt : i < c.session.dispatched.length
    · rw [List.getElem?_append_left hlt] at hi
      exact absurd hy (h.not_refused hs hi)
    · obtain ⟨hlt', -⟩ := List.getElem?_eq_some_iff.1 hi
      rw [List.length_append, List.length_singleton] at hlt'
      obtain rfl : i = c.session.dispatched.length := by omega
      rw [List.getElem?_concat_length] at hi
      cases hi
      exact ⟨rfl, .inl hstage⟩

theorem kept_takes (h : Kept c l) {s : Session} (hstep : c.session.step .takeResult = some s) :
    Kept ({ c with session := s }.assign) l := by
  cases Session.Step.of_step hstep with
  | takeMessage x hs hslot hx =>
    refine kept_message h (x := x) hs rfl rfl ?_ ?_ rfl
    · simpa [assign] using h.handler
    · simp [assign, h.handler, echo]
  | takeLast result why hs hslot hw =>
    refine h.of_same rfl rfl rfl rfl ?_ ?_
    · simp [assign, Session.finish, hs]
    · simp [Session.Refuses, hs]
  | missReader hs hslot hr =>
    refine h.of_same rfl rfl rfl rfl ?_ ?_
    · simp [assign, Session.finish, hs]
    · simp [Session.Refuses, hs]

/-! ### The handler works -/

theorem Kept.effects (h : Kept c l) {x : Envelope} (hs : c.session.stage = .handling x)
    {effect : Effect} {rest : List Effect} (heffects : c.work.effects = effect :: rest) :
    ∃ m, effect = .spawn m ∧ rest = [] ∧ x.reply? = some m ∧ c.work.verdict = .ok () ∧
      c.session.dispatched.length - 1 ∉ l.known := by
  obtain ⟨-, ⟨hwork, hfresh⟩ | ⟨hwork, -⟩⟩ := h.handling x hs
  · rw [hwork, echoWork_eq] at heffects ⊢
    cases hreply : x.reply? with
    | none => simp [hreply] at heffects
    | some m =>
      simp only [hreply, Option.toList_some, List.map_cons, List.map_nil, List.cons.injEq] at heffects
      have hrefusal : x.refusal? = none := by
        cases hr : x.refusal? with
        | none => rfl
        | some r => simp [Envelope.reply?_of_refusal? hr] at hreply
      exact ⟨m, heffects.1.symm, heffects.2.symm, rfl, by simp [hrefusal], hfresh⟩
  · rw [hwork] at heffects
    cases heffects

theorem kept_answers (h : Kept c l) {x : Envelope} {s : Session} (hs : c.session.stage = .handling x)
    (heffects : c.work.effects = []) (hstep : c.session.step (.answer c.work.verdict) = some s) :
    Kept { c with session := s } l := by
  obtain ⟨hlast, hwork⟩ := h.handling x hs
  -- the message with the handler is refused if and only if the verdict says so
  have hverdict : ∀ r, x.refusal? = some r → c.work.verdict = .error r := by
    intro r hr
    rcases hwork with ⟨hwork, -⟩ | ⟨-, hnone⟩
    · rw [hwork, echoWork_eq, hr]
    · cases hnone.symm.trans hr
  have hstage : s.dispatched = c.session.dispatched ∧ (∀ y, s.stage ≠ .handling y) ∧
      ∀ r, c.work.verdict = .error r → s.stage = .closing (.rejected r) := by
    generalize c.work.verdict = verdict at hstep
    cases Session.Step.of_step hstep with
    | accept => simp
    | reject => simp [Session.finish]
  obtain ⟨hd, hstage, hrejected⟩ := hstage
  refine
    { handler := h.handler
      tasks := h.tasks
      unsent := by rw [hd]; exact h.unsent
      unreported := h.unreported
      reported := h.reported
      sent := by rw [hd]; exact h.sent
      sends_nodup := h.sends_nodup
      known_nodup := h.known_nodup
      all := ?_
      handling := fun y hy => absurd hy (hstage y)
      refused := ?_ }
  · intro i m howed
    rw [hd] at howed
    rcases h.all i m howed with hknown | ⟨-, -, habout⟩
    · exact .inl hknown
    · rw [heffects] at habout
      cases habout
  · intro i y r hi hy
    rw [hd] at hi ⊢
    obtain ⟨hilast, -⟩ := h.refused i y r hi hy
    refine ⟨hilast, .inr (.inl (hrejected r ?_))⟩
    obtain rfl : y = x := by
      rw [List.getLast?_eq_getElem?, ← hilast, Nat.add_sub_cancel] at hlast
      exact Option.some.inj (hi.symm.trans hlast)
    exact hverdict r hy

/-! ### Tasks -/

theorem Kept.task (h : Kept c l) {place : Nat} {task : Task} (htask : c.tasks[place]? = some task) :
    ∃ i, l.tasks[place]? = some (i, task) := by
  rw [← h.tasks, List.getElem?_map] at htask
  obtain ⟨⟨i, task'⟩, hentry, rfl⟩ := Option.map_eq_some_iff.1 htask
  exact ⟨i, hentry⟩

theorem map_set_of_getElem? {α β : Type} {f : α → β} {xs : List α} {a b : α} {n : Nat}
    (hn : xs[n]? = some a) (hf : f b = f a) : (xs.set n b).map f = xs.map f := by
  obtain ⟨hlt, rfl⟩ := List.getElem?_eq_some_iff.1 hn
  rw [List.map_set, hf, ← List.getElem_map f (h := by simpa using hlt), List.set_getElem_self]

theorem eq_of_key_eq {α : Type} {xs : List (Nat × α)} (hnodup : (xs.map (·.1)).Nodup) {i : Nat}
    {a b : α} (ha : (i, a) ∈ xs) (hb : (i, b) ∈ xs) : a = b := by
  have heq : (i, a) = (i, b) := List.inj_on_of_nodup_map hnodup ha hb rfl
  exact congrArg Prod.snd heq

variable [MessageStream S]

theorem kept_spawn (h : Kept c l) {x : Envelope} (hs : c.session.stage = .handling x)
    (heffects : c.work.effects = [.spawn m]) :
    Kept ({ c with work := { c.work with effects := [] } }.spawn m) (l.note c .work) := by
  obtain ⟨m', heffect, -, hreply, hverdict, hfresh⟩ := h.effects hs heffects
  cases heffect
  obtain ⟨hlast, -⟩ := h.handling x hs
  have howed : Owed c.session.dispatched (c.session.dispatched.length - 1) m :=
    Owed.of_last hlast hreply
  have hlt := howed.lt
  have hnote : l.note c .work =
      { l with tasks := l.tasks ++ [(c.session.dispatched.length - 1, .unsent m)] } := by
    simp only [Ledger.note, hs, heffects]
  have hsubset : ∀ i, i ∈ l.known → i ∈ (l.note c .work).known := by
    intro i hi
    simp only [hnote, Ledger.known, List.map_append, List.mem_append] at hi ⊢
    rcases hi with hi | hi
    · exact .inl (.inl hi)
    · exact .inr hi
  have hnew : c.session.dispatched.length - 1 ∈ (l.note c .work).known := by
    simp [hnote, Ledger.known]
  refine
    { handler := h.handler
      tasks := ?_
      unsent := ?_
      unreported := ?_
      reported := ?_
      sent := ?_
      sends_nodup := ?_
      known_nodup := ?_
      all := ?_
      handling := ?_
      refused := h.refused }
  · rw [hnote, List.map_append, h.tasks]
    rfl
  · intro i m' hmem
    rw [hnote] at hmem ⊢
    rcases List.mem_append.1 hmem with hmem | hmem
    · exact h.unsent i m' hmem
    · cases List.mem_singleton.1 hmem
      refine ⟨howed, fun hsent => ?_⟩
      obtain ⟨⟨i, m', outcome⟩, hsent, hi⟩ := List.mem_map.1 hsent
      obtain rfl : i = c.session.dispatched.length - 1 := hi
      exact hfresh (h.sent _ _ _ hsent).2
  · intro i outcome hmem
    rw [hnote] at hmem ⊢
    rcases List.mem_append.1 hmem with hmem | hmem
    · exact h.unreported i outcome hmem
    · cases List.mem_singleton.1 hmem
  · intro i outcome hmem
    rw [hnote] at hmem ⊢
    exact h.reported i outcome hmem
  · intro i m' outcome hmem
    have hold := h.sent i m' outcome (by rwa [hnote] at hmem)
    exact ⟨hold.1, hsubset i hold.2⟩
  · rw [hnote]
    exact h.sends_nodup
  · have hperm : (l.note c .work).known.Perm
        ((c.session.dispatched.length - 1) :: l.known) := by
      simp only [hnote, Ledger.known, List.map_append, List.map_cons, List.map_nil, List.append_assoc]
      exact List.perm_middle
    exact hperm.nodup_iff.2 (List.nodup_cons.2 ⟨hfresh, h.known_nodup⟩)
  · intro i m' howed'
    left
    rcases h.all i m' howed' with hknown | ⟨hi, -⟩
    · exact hsubset i hknown
    · obtain rfl : i = c.session.dispatched.length - 1 := by omega
      exact hnew
  · intro y hy
    cases hs.symm.trans hy
    refine ⟨hlast, .inr ⟨?_, ?_⟩⟩
    · simp [spawn, hverdict]
    · cases hr : x.refusal? with
      | none => rfl
      | some r => simp [Envelope.reply?_of_refusal? hr] at hreply

theorem kept_sends (h : Kept c l) {place : Nat} {outcome : Sent} {stream : S}
    (htask : c.tasks[place]? = some (.unsent m))
    (hsend : MessageStream.send m c.stream = some (outcome, stream)) :
    Kept { c with stream, tasks := c.tasks.set place (.unreported outcome) }
      (l.note c (.advance place)) := by
  obtain ⟨i, hentry⟩ := h.task htask
  have hmem : (i, .unsent m) ∈ l.tasks := List.mem_of_getElem? hentry
  obtain ⟨howed, hfresh⟩ := h.unsent i m hmem
  have hnote : l.note c (.advance place) =
      { l with
        tasks := l.tasks.set place (i, .unreported outcome)
        sends := l.sends ++ [(i, m, outcome)] } := by
    simp only [Ledger.note, hentry, send, hsend, Option.map_some]
  have hplaces : (l.tasks.set place (i, Task.unreported outcome)).map (·.1) = l.tasks.map (·.1) :=
    map_set_of_getElem? hentry rfl
  have hknown : (l.note c (.advance place)).known = l.known := by
    simp only [hnote, Ledger.known, hplaces]
  have htasks : ((l.tasks.set place (i, Task.unreported outcome)).map (·.1)).Nodup := by
    rw [hplaces]
    exact (List.nodup_append.1 h.known_nodup).1
  have hnew : (i, Task.unreported outcome) ∈ l.tasks.set place (i, .unreported outcome) := by
    obtain ⟨hlt, -⟩ := List.getElem?_eq_some_iff.1 hentry
    exact List.mem_set hlt _
  refine
    { handler := h.handler
      tasks := ?_
      unsent := ?_
      unreported := ?_
      reported := ?_
      sent := ?_
      sends_nodup := ?_
      known_nodup := by rw [hknown]; exact h.known_nodup
      all := by rw [hknown]; exact h.all
      handling := by
        intro x hx
        rw [AtWork, hknown]
        exact h.handling x hx
      refused := h.refused }
  · rw [hnote, List.map_set, h.tasks]
  · intro j m' hj
    rw [hnote] at hj ⊢
    -- the entry of the task that has just sent says so now
    have hne : j ≠ i := by
      rintro rfl
      cases eq_of_key_eq htasks hj hnew
    have hold : (j, Task.unsent m') ∈ l.tasks := by
      rcases List.mem_or_eq_of_mem_set hj with hj | heq
      · exact hj
      · cases heq
    obtain ⟨howed', hfresh'⟩ := h.unsent j m' hold
    refine ⟨howed', ?_⟩
    rw [List.map_append, List.mem_append]
    rintro (hj | hj)
    · exact hfresh' hj
    · exact hne (List.mem_singleton.1 hj)
  · intro j outcome' hj
    rw [hnote] at hj ⊢
    rcases List.mem_or_eq_of_mem_set hj with hj | heq
    · obtain ⟨m', hm'⟩ := h.unreported j outcome' hj
      exact ⟨m', List.mem_append_left _ hm'⟩
    · cases heq
      exact ⟨m, by simp⟩
  · intro j outcome' hj
    rw [hnote] at hj ⊢
    obtain ⟨m', hm'⟩ := h.reported j outcome' hj
    exact ⟨m', List.mem_append_left _ hm'⟩
  · intro j m' outcome' hj
    rw [hknown]
    rw [hnote] at hj
    rcases List.mem_append.1 hj with hj | hj
    · exact h.sent j m' outcome' hj
    · cases List.mem_singleton.1 hj
      exact ⟨howed, List.mem_append_left _ (List.mem_map.2 ⟨_, hmem, rfl⟩)⟩
  · rw [hnote, List.map_append]
    refine List.nodup_append.2 ⟨h.sends_nodup, List.nodup_singleton i, ?_⟩
    rintro j hj k hk rfl
    cases List.mem_singleton.1 hk
    exact hfresh hj

theorem kept_reports (h : Kept c l) {place : Nat} {outcome : Sent} {s : Session}
    (htask : c.tasks[place]? = some (.unreported outcome))
    (hstep : c.session.step (.report outcome) = some s) :
    Kept { c with session := s, tasks := c.tasks.eraseIdx place } (l.note c (.advance place)) := by
  obtain ⟨i, hentry⟩ := h.task htask
  have hmem : (i, .unreported outcome) ∈ l.tasks := List.mem_of_getElem? hentry
  have hnote : l.note c (.advance place) =
      { l with tasks := l.tasks.eraseIdx place, reports := l.reports ++ [(i, outcome)] } := by
    simp only [Ledger.note, hentry]
  have hknown : (l.note c (.advance place)).known.Perm l.known := by
    obtain ⟨hlt, hget⟩ := List.getElem?_eq_some_iff.1 hentry
    have hperm : ((i, Task.unreported outcome) :: l.tasks.eraseIdx place).Perm l.tasks := by
      rw [← hget]
      exact List.getElem_cons_eraseIdx_perm hlt
    have hplaces : (i :: (l.tasks.eraseIdx place).map (·.1)).Perm (l.tasks.map (·.1)) :=
      hperm.map Prod.fst
    simp only [hnote, Ledger.known, List.map_append, List.map_cons, List.map_nil]
    rw [← List.append_assoc]
    refine (List.perm_append_singleton i _).trans ?_
    exact hplaces.append_right (l.reports.map (·.1))
  have hsession := Session.Step.of_step hstep
  obtain ⟨hd, hstage⟩ := hsession.handling_iff (by simp) (by simp)
  refine
    { handler := h.handler
      tasks := ?_
      unsent := ?_
      unreported := ?_
      reported := ?_
      sent := ?_
      sends_nodup := by rw [hnote]; exact h.sends_nodup
      known_nodup := hknown.nodup_iff.2 h.known_nodup
      all := ?_
      handling := ?_
      refused := ?_ }
  · rw [hnote, ← h.tasks]
    exact (List.eraseIdx_map ..).symm
  · intro j m' hj
    rw [hnote] at hj ⊢
    rw [hd]
    exact h.unsent j m' (List.mem_of_mem_eraseIdx hj)
  · intro j outcome' hj
    rw [hnote] at hj ⊢
    exact h.unreported j outcome' (List.mem_of_mem_eraseIdx hj)
  · intro j outcome' hj
    rw [hnote] at hj ⊢
    rcases List.mem_append.1 hj with hj | hj
    · exact h.reported j outcome' hj
    · cases List.mem_singleton.1 hj
      exact h.unreported i outcome hmem
  · intro j m' outcome' hj
    rw [hd, hknown.mem_iff]
    exact h.sent j m' outcome' (by rwa [hnote] at hj)
  · intro j m' howed
    rw [hd] at howed ⊢
    rw [hknown.mem_iff]
    simpa only [AboutTo, hstage] using h.all j m' howed
  · intro x hx
    obtain ⟨hlast, hwork⟩ := h.handling x ((hstage x).1 hx)
    rw [AtWork, hd, hknown.mem_iff]
    exact ⟨hlast, hwork⟩
  · intro j x r hj hx
    rw [hd] at hj ⊢
    exact (h.refused j x r hj hx).imp_right (hsession.refuses (by simp) (by simp))

/-! ### Every move -/

theorem note_of_action (l : Ledger) (c : Conversation Unit S) {a : Session.Action}
    (ha : a.move? = some move) : l.note c move = l := by
  cases a <;> cases ha <;> rfl

theorem kept_move (hmoves : Moves c move d made) (hforeign : move.isForeign = false) (h : Kept c l) :
    Kept d (l.note c move) := by
  cases hmoves with
  | goesOn a hstep ha hmove hhandler hwork htasks =>
    have hsession := Session.Step.of_step hstep
    have htake : a ≠ .takeResult := by
      rintro rfl
      cases ha
      exact hmove rfl
    have hanswer : ∀ verdict, a ≠ .answer verdict := by
      rintro verdict rfl
      cases ha
    obtain ⟨hd, hstage⟩ := hsession.handling_iff htake hanswer
    rw [note_of_action l c ha]
    exact h.of_same hhandler hwork htasks hd hstage fun m r => hsession.refuses htake hanswer
  | takes s hstep => exact kept_takes h hstep
  | spawns x m rest hs heffects =>
    obtain ⟨-, -, rfl, -⟩ := h.effects hs heffects
    exact kept_spawn h hs heffects
  | performs x effect rest hs heffects heffect =>
    obtain ⟨m, hm, -⟩ := h.effects hs heffects
    exact absurd hm (heffect m)
  | answers x s hs heffects hstep =>
    have hnote : l.note c .work = l := by simp only [Ledger.note, hs, heffects]
    rw [hnote]
    exact kept_answers h hs heffects hstep
  | sends place m outcome stream htask hsend => exact kept_sends h htask hsend
  | reports place outcome s htask hstep => exact kept_reports h htask hstep
  | foreign hmove =>
    rw [hforeign] at hmove
    cases hmove

/-- **Every reachable state of an echo session accounts for its tasks.** -/
theorem kept_run {name : String} {stream : S} {turns : List (Turn S)}
    (hown : ∀ t ∈ turns, t.isForeign = false)
    (hrun : (start name stream echo).proceed turns = some c) :
    Kept c ((start name stream echo).ledger turns) := by
  refine proceed_induction (P := fun turns c => Kept c ((start name stream echo).ledger turns))
    (kept_start name stream) (fun turns t c d _ hbefore h ht hturn => ?_) hown hrun
  rw [ledger_concat hbefore]
  cases t with
  | move move =>
    obtain ⟨made, hmoves, -⟩ := moves_of_turn hturn
    exact kept_move hmoves ht h
  | shift stream =>
    cases hturn
    exact h.of_same rfl rfl rfl rfl (fun _ => Iff.rfl) fun _ _ => id

end Conversation

end Chaincode
