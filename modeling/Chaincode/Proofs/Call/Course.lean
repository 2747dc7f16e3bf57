import Mathlib.Data.List.Induction
import Chaincode.Call

/-!
# What the receives on a call come to

The other side decides what a call comes to: the messages it sends, and how the call ends. `course`
says that much without the phases of a call. However receives, sends and the events of the call are
interleaved, the receives yield the messages in order, then the end with its reason, once, and from
then on that the call is closed (`results_of_play`). That is so because what arrives later might as
well have been there from the start (`receive_arrive`). The first fault that is received is the end of
the call (`Course.fault?_of_first`), and it is a clean one only if the peer hung up (`hungUp_of_closed`).
-/

namespace Chaincode

/-- What a receive makes of an item on an open call. -/
def Arrival.result (limit : Nat) : Arrival → Received
  | .frame bytes =>
    match Codec.read limit bytes with
    | .ok m => .ok m
    | .error status => .error (.status status)
  | .ended => .error .closed
  | .failed status => .error (.status status)

/-- The messages of a call, in order, and the reason of its end, once it has ended. -/
structure Course where
  messages : List Envelope := []
  fault? : Option StreamFault := none

namespace Course

/-- What the receive comes to that follows on `n` others; nothing yet, if it has to wait. -/
def result? (c : Course) (n : Nat) : Option Received :=
  match c.messages[n]? with
  | some m => some (.ok m)
  | none => c.fault?.map fun fault => .error (if n = c.messages.length then fault else .closed)

def cons (m : Envelope) (c : Course) : Course := { c with messages := m :: c.messages }

/-- The course of an open call on which these items arrive. -/
def ofArrivals (limit : Nat) : List Arrival → Course
  | [] => {}
  | a :: rest =>
    match a.result limit with
    | .ok m => (ofArrivals limit rest).cons m
    | .error fault => { fault? := some fault }

end Course

namespace Call

/-- A call as it is when it begins. -/
def opened : Role → String → Nat → Call
  | .client => dialed
  | .server => accepted

/-- What happens on a call that is no use of it as a stream. -/
inductive Event where
  | answer (o : Opening)
  | arrive (a : Arrival)
  /-- A step of the sending direction: of the call, or of a send that has to wait. -/
  | outbound (a : Outbound.Action)

/-- The call after an event, if the event is possible. A call is answered once. -/
def happen (c : Call) : Event → Option Call
  | .answer o => if c.inbound.opening.isNone then some (c.answer o) else none
  | .arrive a => some (c.arrive a)
  | .outbound a => (c.outbound.step a).map fun (_, outbound) => { c with outbound }

/-- One step of a call: a use of it as a stream, or an event. -/
inductive Action where
  | receive
  | send (m : Envelope)
  | close
  | event (e : Event)

/-- The call after an action, if the action is possible, and the result if it is a receive. -/
def act (c : Call) : Action → Option (Option Received × Call)
  | .receive => c.receive.map fun (result, c) => (some result, c)
  | .send m => (c.send m).map fun (_, c) => (none, c)
  | .close => some (none, c.close)
  | .event e => (c.happen e).map (none, ·)

/-- The call after a list of actions, if each is possible in its turn, and the results of the
receives among them. -/
def play (c : Call) : List Action → Option (List Received × Call)
  | [] => some ([], c)
  | a :: rest => do
    let (result?, c) ← c.act a
    let (results, c) ← c.play rest
    return (result?.toList ++ results, c)

def arrivals (es : List Event) : List Arrival :=
  es.filterMap fun
    | .arrive a => some a
    | _ => none

/-- How a call of ours comes out in the course of the events. -/
def answer? (es : List Event) : Option Opening :=
  es.findSome? fun
    | .answer o => some o
    | _ => none

/-- The course that a call takes in these events. A call of ours that is not accepted has no items. -/
def course (role : Role) (limit : Nat) (es : List Event) : Course :=
  match role, answer? es with
  | .server, _ => .ofArrivals limit (arrivals es)
  | .client, none => {}
  | .client, some .accepted => .ofArrivals limit (arrivals es)
  | .client, some (.refused status) => { fault? := some (.status status) }
  | .client, some (.lost reason) =>
    { fault? := some (.status { code := .aborted, message := "call task failed: " ++ reason }) }

def events (as : List Action) : List Event :=
  as.filterMap fun
    | .event e => some e
    | _ => none

end Call

/-! ## One receive -/

namespace Course

variable {c : Course} {m : Envelope} {fault : StreamFault} {n : Nat}

theorem result?_cons_succ : (c.cons m).result? (n + 1) = c.result? n := by
  simp [result?, cons]

theorem ofArrivals_message {limit : Nat} {a : Arrival} {rest : List Arrival}
    (h : a.result limit = .ok m) : ofArrivals limit (a :: rest) = (ofArrivals limit rest).cons m := by
  rw [ofArrivals, h]

theorem ofArrivals_fault {limit : Nat} {a : Arrival} {rest : List Arrival}
    (h : a.result limit = .error fault) : ofArrivals limit (a :: rest) = { fault? := some fault } := by
  rw [ofArrivals, h]

end Course

namespace Inbound

variable {i j k : Inbound} {r : Received} {rs : List Received}

/-- What is still to come of a call, as far as it is there. -/
def course (i : Inbound) : Course :=
  match i.phase with
  | .finished => { fault? := some .closed }
  | .open => .ofArrivals i.limit i.arrivals
  | .opening =>
    match i.opening with
    | none => {}
    | some answer =>
      match answer.fault? with
      | some status => { fault? := some (.status status) }
      | none => .ofArrivals i.limit i.arrivals

/-- Either there is nothing to receive yet, or the receive takes the first of what is still to come. -/
def TakesFirst (c : Course) : Option (Received × Inbound) → Prop
  | none => c.result? 0 = none
  | some (r, j) => c.result? 0 = some r ∧ ∀ n, j.course.result? n = c.result? (n + 1)

theorem takesFirst_finish (i : Inbound) (fault : StreamFault) :
    TakesFirst { fault? := some fault } (some (i.finish fault)) := by
  refine ⟨rfl, fun n => ?_⟩
  cases n with
  | zero => rfl
  | succ n => rfl

theorem next_eq (i : Inbound) : i.next = match i.arrivals with
    | [] => none
    | a :: rest =>
      match a.result i.limit with
      | .ok m => some (.ok m, { i with arrivals := rest })
      | .error fault => some (i.finish fault) := by
  rw [next]
  cases i.arrivals with
  | nil => rfl
  | cons a rest =>
    cases a with
    | frame bytes =>
      simp only [Arrival.result]
      cases Codec.read i.limit bytes with
      | ok m => rfl
      | error status => rfl
    | ended => rfl
    | failed status => rfl

theorem takesFirst_next (hopen : i.phase = .open) :
    TakesFirst (.ofArrivals i.limit i.arrivals) i.next := by
  rw [next_eq]
  cases i.arrivals with
  | nil => rfl
  | cons a rest =>
    cases hresult : a.result i.limit with
    | error fault =>
      simp only [Course.ofArrivals_fault hresult, hresult]
      exact takesFirst_finish i fault
    | ok m =>
      simp only [Course.ofArrivals_message hresult, hresult]
      refine ⟨rfl, fun n => ?_⟩
      rw [Course.result?_cons_succ]
      simp only [course, hopen]

theorem takesFirst_receive (i : Inbound) : TakesFirst i.course i.receive := by
  rw [receive, course]
  cases hphase : i.phase with
  | finished =>
    refine ⟨rfl, fun n => ?_⟩
    simp only [course, hphase]
    cases n with
    | zero => rfl
    | succ n => rfl
  | «open» => exact takesFirst_next hphase
  | opening =>
    simp only
    cases i.opening with
    | none => rfl
    | some answer =>
      simp only
      cases hfault : answer.fault? with
      | some status => exact takesFirst_finish i _
      | none => exact takesFirst_next rfl

/-! ## Receives one after the other -/

/-- Receives on `i`, one after the other with nothing happening between them, come to `rs` and leave
`j`. -/
inductive Yields : Inbound → List Received → Inbound → Prop where
  | nil (i : Inbound) : Yields i [] i
  | cons {i j k : Inbound} {r : Received} {rs : List Received} (h : i.receive = some (r, j))
      (hrest : Yields j rs k) : Yields i (r :: rs) k

theorem Yields.concat (h : Yields i rs j) (hlast : j.receive = some (r, k)) :
    Yields i (rs ++ [r]) k := by
  induction h with
  | nil i => exact .cons hlast (.nil k)
  | cons h hrest ih => exact .cons h (ih hlast)

theorem Yields.course (h : Yields i rs j) :
    (∀ n r, rs[n]? = some r → i.course.result? n = some r) ∧
      ∀ n, j.course.result? n = i.course.result? (rs.length + n) := by
  induction h with
  | nil i => simp
  | @cons i j k r rs h hrest ih =>
    obtain ⟨hresults, hrest⟩ := ih
    have hfirst := takesFirst_receive i
    rw [h] at hfirst
    obtain ⟨hzero, hsucc⟩ := hfirst
    constructor
    · intro n r' hr'
      cases n with
      | zero =>
        cases hr'
        exact hzero
      | succ n =>
        rw [← hsucc]
        exact hresults n r' hr'
    · intro n
      rw [hrest, hsucc, List.length_cons, Nat.add_right_comm]

/-! ## What comes late might as well have come early -/

def arrive (i : Inbound) (a : Arrival) : Inbound := { i with arrivals := i.arrivals ++ [a] }

theorem next_arrive (b : Arrival) (h : i.next = some (r, j)) :
    (i.arrive b).next = some (r, j.arrive b) := by
  rw [next_eq] at h ⊢
  cases harrivals : i.arrivals with
  | nil =>
    rw [harrivals] at h
    cases h
  | cons a rest =>
    simp only [harrivals, arrive, List.cons_append] at h ⊢
    cases hresult : a.result i.limit with
    | ok m =>
      simp only [hresult] at h
      cases h
      rfl
    | error fault =>
      simp only [hresult] at h
      cases h
      simp [finish, harrivals]

theorem next_opening (answer? : Option Opening) :
    ({ i with opening := answer? } : Inbound).next =
      i.next.map fun (r, j) => (r, { j with opening := answer? }) := by
  obtain ⟨phase, limit, opening, arrivals⟩ := i
  rw [next_eq, next_eq]
  cases arrivals with
  | nil => rfl
  | cons a rest =>
    simp only
    cases a.result limit with
    | ok m => rfl
    | error fault => rfl

theorem receive_arrive (a : Arrival) (h : i.receive = some (r, j)) :
    (i.arrive a).receive = some (r, j.arrive a) := by
  obtain ⟨phase, limit, opening, arrivals⟩ := i
  cases phase with
  | finished =>
    cases h
    rfl
  | «open» => exact next_arrive a h
  | opening =>
    cases opening with
    | none => cases h
    | some answer =>
      simp only [receive, arrive] at h ⊢
      cases hfault : answer.fault? with
      | some status =>
        rw [hfault] at h
        cases h
        rfl
      | none =>
        rw [hfault] at h
        exact next_arrive a h

theorem receive_answer (o : Opening) (hnone : i.opening = none) (h : i.receive = some (r, j)) :
    ({ i with opening := some o } : Inbound).receive = some (r, { j with opening := some o }) := by
  have hnext := next_opening (i := i) (some o)
  obtain ⟨phase, limit, opening, arrivals⟩ := i
  cases hnone
  cases phase with
  | finished =>
    cases h
    rfl
  -- before the answer nothing was received
  | opening => cases h
  | «open» =>
    have hopen : ({ phase := .open, limit, arrivals } : Inbound).next = some (r, j) := h
    rw [hopen] at hnext
    exact hnext

theorem opening_next (h : i.next = some (r, j)) : j.opening = i.opening := by
  have hself := next_opening (i := i) i.opening
  rw [h] at hself
  exact congrArg (·.2.opening) (Option.some.inj hself)

theorem opening_receive (h : i.receive = some (r, j)) : j.opening = i.opening := by
  rw [receive] at h
  split at h
  · cases h
    rfl
  · exact opening_next h
  · split at h
    · cases h
    · split at h
      · cases h
        rfl
      · have hopening := opening_next h
        exact hopening

theorem Yields.opening (h : Yields i rs j) : j.opening = i.opening := by
  induction h with
  | nil i => rfl
  | cons h hrest ih => rw [ih, opening_receive h]

theorem Yields.arrive (a : Arrival) (h : Yields i rs j) : Yields (i.arrive a) rs (j.arrive a) := by
  induction h with
  | nil i => exact .nil _
  | cons h hrest ih => exact .cons (receive_arrive a h) ih

theorem Yields.answer (o : Opening) (hnone : i.opening = none) (h : Yields i rs j) :
    Yields { i with opening := some o } rs { j with opening := some o } := by
  induction h with
  | nil i => exact .nil _
  | cons h hrest ih =>
    exact .cons (receive_answer o hnone h) (ih ((opening_receive h).trans hnone))

end Inbound

/-! ## Whole calls -/

namespace Call

variable {c d : Call} {as : List Action} {a : Action} {rs : List Received} {role : Role} {peer : String}
  {limit : Nat}

theorem play_cons : c.play (a :: as) = some (rs, d) ↔ ∃ r? c' rs', c.act a = some (r?, c') ∧
    c'.play as = some (rs', d) ∧ rs = r?.toList ++ rs' := by
  constructor
  · intro h
    obtain ⟨⟨r?, c'⟩, hact, h⟩ := Option.bind_eq_some_iff.1 h
    obtain ⟨⟨rs', d'⟩, hplay, h⟩ := Option.bind_eq_some_iff.1 h
    cases h
    exact ⟨r?, c', rs', hact, hplay, rfl⟩
  · rintro ⟨r?, c', rs', hact, hplay, rfl⟩
    exact Option.bind_eq_some_iff.2 ⟨_, hact, Option.bind_eq_some_iff.2 ⟨_, hplay, rfl⟩⟩

theorem play_append {bs : List Action} : c.play (as ++ bs) = some (rs, d) ↔ ∃ rs₁ c' rs₂,
    c.play as = some (rs₁, c') ∧ c'.play bs = some (rs₂, d) ∧ rs = rs₁ ++ rs₂ := by
  induction as generalizing c rs with
  | nil =>
    constructor
    · intro h
      exact ⟨[], c, rs, rfl, h, rfl⟩
    · rintro ⟨rs₁, c', rs₂, hplay, h, rfl⟩
      cases hplay
      exact h
  | cons b as ih =>
    rw [List.cons_append, play_cons]
    constructor
    · rintro ⟨r?, c', rs', hact, hplay, rfl⟩
      obtain ⟨rs₁, c'', rs₂, hplay', hmore, rfl⟩ := ih.1 hplay
      exact ⟨_, c'', rs₂, play_cons.2 ⟨r?, c', rs₁, hact, hplay', rfl⟩, hmore,
        (List.append_assoc _ _ _).symm⟩
    · rintro ⟨rs₁, c', rs₂, hplay, hmore, rfl⟩
      obtain ⟨r?, c'', rs', hact, hplay', rfl⟩ := play_cons.1 hplay
      exact ⟨r?, c'', _, hact, ih.2 ⟨rs', c', rs₂, hplay', hmore, rfl⟩, List.append_assoc _ _ _⟩

theorem play_concat : c.play (as ++ [a]) = some (rs, d) ↔ ∃ rs' c' r?, c.play as = some (rs', c') ∧
    c'.act a = some (r?, d) ∧ rs = rs' ++ r?.toList := by
  rw [play_append]
  constructor
  · rintro ⟨rs', c', rs₂, hplay, hlast, rfl⟩
    obtain ⟨r?, d', rs'', hact, hnil, rfl⟩ := play_cons.1 hlast
    cases hnil
    exact ⟨rs', c', r?, hplay, hact, by simp⟩
  · rintro ⟨rs', c', r?, hplay, hact, rfl⟩
    exact ⟨rs', c', r?.toList, hplay, play_cons.2 ⟨r?, d, [], hact, rfl, by simp⟩, rfl⟩

theorem events_append (as bs : List Action) : events (as ++ bs) = events as ++ events bs :=
  List.filterMap_append

theorem send_inbound {m : Envelope} {outcome : Sent} (h : c.send m = some (outcome, d)) :
    d.inbound = c.inbound := by
  simp only [send] at h
  split at h
  · cases h
    rfl
  · split at h
    · cases h
      rfl
    · obtain ⟨⟨outcome', outbound⟩, -, heq⟩ := Option.map_eq_some_iff.1 h
      cases heq
      rfl

/-- The receiving direction of a call on which everything that happens has happened before the first
receive. -/
def whole (role : Role) (limit : Nat) (es : List Event) : Inbound :=
  { (opened role "" limit).inbound with opening := answer? es, arrivals := arrivals es }

theorem whole_course (es : List Event) :
    (whole role limit es).course = course role limit es := by
  cases role with
  | server => rfl
  | client =>
    simp only [whole, opened, dialed, Inbound.dialed, Inbound.course, course]
    cases answer? es with
    | none => rfl
    | some o => cases o <;> rfl

theorem yields_happen {e : Event} {es : List Event} (hyields : (whole role limit es).Yields rs c.inbound)
    (h : c.happen e = some d) : (whole role limit (es ++ [e])).Yields rs d.inbound := by
  cases e with
  | arrive b =>
    cases h
    have harrive := hyields.arrive b
    have hwhole : whole role limit (es ++ [.arrive b]) = (whole role limit es).arrive b := by
      simp [whole, Inbound.arrive, arrivals, answer?, List.findSome?_append]
    rw [hwhole]
    exact harrive
  | answer o =>
    rw [happen] at h
    split at h
    · rename_i hnone
      cases h
      have hopening : (whole role limit es).opening = none := by
        rw [← hyields.opening]
        exact Option.isNone_iff_eq_none.1 hnone
      have hwhole : whole role limit (es ++ [.answer o]) =
          { whole role limit es with opening := some o } := by
        have hanswer : answer? es = none := hopening
        rw [answer?] at hanswer
        simp [whole, arrivals, answer?, List.findSome?_append, hanswer]
      rw [hwhole]
      exact hyields.answer o hopening
    · cases h
  | outbound b =>
    obtain ⟨⟨outcome, outbound⟩, -, rfl⟩ := Option.map_eq_some_iff.1 h
    have hwhole : whole role limit (es ++ [.outbound b]) = whole role limit es := by
      simp [whole, arrivals, answer?, List.findSome?_append]
    rw [hwhole]
    exact hyields

theorem yields_act {es : List Event} {r? : Option Received}
    (hyields : (whole role limit es).Yields rs c.inbound) (h : c.act a = some (r?, d)) :
    (whole role limit (es ++ events [a])).Yields (rs ++ r?.toList) d.inbound := by
  cases a with
  | receive =>
    obtain ⟨⟨r, c'⟩, hreceive, heq⟩ := Option.map_eq_some_iff.1 h
    cases heq
    obtain ⟨⟨r', inbound⟩, hinbound, heq⟩ := Option.map_eq_some_iff.1 hreceive
    cases heq
    simpa [events] using hyields.concat hinbound
  | send m =>
    obtain ⟨⟨outcome, c'⟩, hsend, heq⟩ := Option.map_eq_some_iff.1 h
    cases heq
    simpa [events, send_inbound hsend] using hyields
  | close =>
    cases h
    simpa [events, close] using hyields
  | event e =>
    obtain ⟨c', hhappen, heq⟩ := Option.map_eq_some_iff.1 h
    cases heq
    simpa [events] using yields_happen hyields hhappen

theorem yields_of_play (h : (opened role peer limit).play as = some (rs, d)) :
    (whole role limit (events as)).Yields rs d.inbound := by
  -- an event that comes last might as well have come before all receives
  induction as using List.reverseRecOn generalizing rs d with
  | nil =>
    cases h
    cases role with
    | client => exact .nil _
    | server => exact .nil _
  | append_singleton as a ih =>
    obtain ⟨rs', c, r?, hplay, hact, rfl⟩ := play_concat.1 h
    rw [events_append]
    exact yields_act (ih hplay) hact

/-- The results so far are those of the course `c`, and the next receive comes to the next one, or has to
wait if there is none. -/
def Follows (call : Call) (results : List Received) (c : Course) : Prop :=
  (∀ n r, results[n]? = some r → c.result? n = some r) ∧
    call.receive.map (·.1) = c.result? results.length

/-- **The receives yield the messages in order, then the end of the call once, then that it is
closed,** whatever else is done with the call meanwhile. -/
theorem results_of_play (h : (opened role peer limit).play as = some (rs, d)) :
    d.Follows rs (course role limit (events as)) := by
  obtain ⟨hresults, hrest⟩ := (yields_of_play h).course
  rw [whole_course] at hresults hrest
  refine ⟨hresults, ?_⟩
  have hnext := Inbound.takesFirst_receive d.inbound
  have hzero := hrest 0
  rw [receive, Option.map_map]
  cases hreceive : d.inbound.receive with
  | none =>
    rw [hreceive] at hnext
    simpa [Inbound.TakesFirst, hzero] using hnext.symm
  | some result =>
    rw [hreceive] at hnext
    simpa [Inbound.TakesFirst, hzero] using hnext.1.symm

end Call

/-! ## How a course ends -/

/-- The fault with which an item ends a call, unless it is a message. -/
def Arrival.fault? (limit : Nat) (a : Arrival) : Option StreamFault :=
  match a.result limit with
  | .ok _ => none
  | .error fault => some fault

theorem Arrival.of_fault?_eq_none {a : Arrival} {limit : Nat} (h : a.fault? limit = none) :
    ∃ bytes m, a = .frame bytes ∧ Codec.read limit bytes = .ok m := by
  cases a with
  | frame bytes =>
    cases hread : Codec.read limit bytes with
    | ok m => exact ⟨bytes, m, rfl, hread⟩
    | error status => simp [fault?, result, hread] at h
  | ended => cases h
  | failed status => cases h

theorem Arrival.eq_ended_of_fault? {a : Arrival} {limit : Nat} (h : a.fault? limit = some .closed) :
    a = .ended := by
  cases a with
  | frame bytes => cases hread : Codec.read limit bytes <;> simp [fault?, result, hread] at h
  | ended => rfl
  | failed status => cases h

namespace Course

variable {c : Course} {fault : StreamFault} {rs rest : List Received} {ms : List Envelope}

theorem ofArrivals_fault? (limit : Nat) (items : List Arrival) :
    (ofArrivals limit items).fault? = items.findSome? (Arrival.fault? limit) := by
  induction items with
  | nil => rfl
  | cons a items ih =>
    rw [List.findSome?_cons, Arrival.fault?]
    cases hresult : a.result limit with
    | ok m =>
      rw [ofArrivals_message hresult]
      exact ih
    | error fault => rw [ofArrivals_fault hresult]

/-- The first fault among the results is the end of the call. -/
theorem fault?_of_first (hresults : ∀ n r, rs[n]? = some r → c.result? n = some r)
    (hrs : rs = ms.map .ok ++ .error fault :: rest) : c.fault? = some fault := by
  have hlast : c.result? ms.length = some (.error fault) := hresults _ _ (by simp [hrs])
  rw [result?] at hlast
  split at hlast
  · cases hlast
  · rename_i hnone
    obtain ⟨fault', hfault', heq⟩ := Option.map_eq_some_iff.1 hlast
    have hle : c.messages.length ≤ ms.length := List.getElem?_eq_none_iff.1 hnone
    rcases Nat.eq_or_lt_of_le hle with hlen | hlt
    · rw [if_pos hlen.symm] at heq
      cases heq
      exact hfault'
    · -- the fault would have come before one of the messages
      have hmessage : rs[c.messages.length]? = some (.ok ms[c.messages.length]) := by
        rw [hrs, List.getElem?_append_left (by simpa using hlt)]
        simp [hlt]
      have hearly := hresults _ _ hmessage
      simp [result?, hfault'] at hearly

end Course

namespace Call

variable {role : Role} {limit : Nat} {es : List Event}

/-- The call was open, and the other side has ended it in good order after messages only. -/
def HungUp (role : Role) (limit : Nat) (es : List Event) : Prop :=
  (role = .server ∨ answer? es = some .accepted) ∧
    ∃ before after, arrivals es = before ++ .ended :: after ∧
      ∀ a ∈ before, ∃ bytes m, a = .frame bytes ∧ Codec.read limit bytes = .ok m

theorem exists_ended {items : List Arrival}
    (h : (Course.ofArrivals limit items).fault? = some .closed) :
    ∃ before after, items = before ++ .ended :: after ∧
      ∀ a ∈ before, ∃ bytes m, a = .frame bytes ∧ Codec.read limit bytes = .ok m := by
  rw [Course.ofArrivals_fault?] at h
  obtain ⟨before, a, after, hitems, ha, hbefore⟩ := List.findSome?_eq_some_iff.1 h
  rw [Arrival.eq_ended_of_fault? ha] at hitems
  exact ⟨before, after, hitems, fun b hb => Arrival.of_fault?_eq_none (hbefore b hb)⟩

theorem hungUp_of_closed (h : (course role limit es).fault? = some .closed) : HungUp role limit es := by
  unfold course at h
  split at h
  · exact ⟨.inl rfl, exists_ended h⟩
  · cases h
  · rename_i haccepted
    exact ⟨.inr haccepted, exists_ended h⟩
  · cases h
  · cases h

theorem course_of_accepted {es' : List Event} (haccepted : answer? es = some .accepted)
    (harrivals : arrivals es = arrivals es') : course .client limit es = course .server limit es' := by
  simp only [course, haccepted, harrivals]

end Call

end Chaincode
