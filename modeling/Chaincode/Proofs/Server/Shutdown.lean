import Mathlib.Data.Nat.Find
import Chaincode.Proofs.Server.Independence

/-!
# Only a request stops a server

A server that is not asked to stop goes on for good and opens every call; one that is asked stops.
-/

/-!
## Calls come to their sessions

A call that is being opened has at most three steps left (`Opening.rest`), which are possible at any time,
whatever the server is about (`run_rest`). Other moves may give the call another place among those being
opened, and do nothing else to it (`place_step`); so if no call is left waiting for good, every call comes
to its session (`launched_of_opened`).
-/

namespace Chaincode.Server

variable {σ S : Type}

/-- What is left to do until a call that is being opened at a place has its session. -/
def Opening.rest (place : Nat) (o : Opening S) : List (Move S) :=
  match o.stage with
  | .arrived => [.number place, .enter place, .launch place]
  | .numbered _ => [.enter place, .launch place]
  | .entered _ => [.launch place]

/-- How many steps these are. -/
def Opening.Stage.left : Opening.Stage → Nat
  | .arrived => 3
  | .numbered _ => 2
  | .entered _ => 1

/-- Is the move a step in opening the call at a place? -/
def Move.opens (place : Nat) : Move S → Bool
  | .number place' | .enter place' | .launch place' => place' = place
  | _ => false

/-- Where the call at a place stands after a move that is no step of its own. -/
def Move.place (place : Nat) : Move S → Nat
  | .launch place' => if place' < place then place - 1 else place
  | _ => place

/-- Where the call at a place after `n` moves stands `k` moves later. -/
def placeAt (moves : Nat → Move S) (n place : Nat) : Nat → Nat
  | 0 => place
  | k + 1 => (moves (n + k)).place (placeAt moves n place k)

/-- No call that is being opened is left waiting for good. -/
def Opened (states : Nat → Server σ S) (moves : Nat → Move S) : Prop :=
  ∀ n, ∀ place < (states n).opening.length, ∃ k, (moves (n + k)).opens (placeAt moves n place k) = true

variable [MessageStream S] {s t : Server σ S} {move : Move S} {place : Nat} {o : Opening S}

/-- The session of a call has been launched between two states. -/
def Launched (o : Opening S) (s t : Server σ S) : Prop :=
  ∃ id, t.served = s.served ++
    [{ id, connection := o.connection, conversation := .start s.name o.stream s.handler }]

theorem run_rest (hplace : s.opening[place]? = some o) :
    ∃ t, s.run (o.rest place) = some t ∧ Launched o s t := by
  obtain ⟨hlt, hget⟩ := List.getElem?_eq_some_iff.1 hplace
  obtain ⟨connection, peer, stream, stage⟩ := o
  cases stage with
  | arrived => exact ⟨_, by simp [Opening.rest, run, step, enter, hlt, hget]; rfl, s.next, rfl⟩
  | numbered id => exact ⟨_, by simp [Opening.rest, run, step, enter, hlt, hget]; rfl, id, rfl⟩
  | entered id => exact ⟨_, by simp [Opening.rest, run, step, hlt, hget]; rfl, id, rfl⟩

theorem Steps.opening_of_call {connection : Nat} {peer : Option String} {stream : S}
    (hstep : Steps s (.call connection Protocol.connectPath peer stream) t) :
    ∃ place : Nat, t.opening[place]? = some { connection, peer, stream } := by
  cases hstep with
  | call => exact ⟨s.opening.length, List.getElem?_concat_length⟩
  | refuse _ _ _ _ status _ hroute => simp [route] at hroute

theorem place_step (hstep : Steps s move t) (hplace : s.opening[place]? = some o)
    (hmove : move.opens place = false) : t.opening[move.place place]? = some o := by
  cases hstep with
  | call =>
    obtain ⟨hlt, -⟩ := List.getElem?_eq_some_iff.1 hplace
    exact (List.getElem?_append_left hlt).trans hplace
  | number | enter => exact (List.getElem?_set_ne (of_decide_eq_false hmove)).trans hplace
  | launch place' =>
    have hne : place' ≠ place := of_decide_eq_false hmove
    by_cases hlt : place' < place
    · have hback : place - 1 + 1 = place := by omega
      simp only [Move.place, if_pos hlt]
      rw [List.getElem?_eraseIdx_of_ge (by omega), hback, hplace]
    · simp only [Move.place, if_neg hlt]
      rw [List.getElem?_eraseIdx_of_lt (by omega), hplace]
  | _ => exact hplace

theorem opens_step (hstep : Steps s move t) (hplace : s.opening[place]? = some o)
    (hmove : move.opens place = true) : Launched o s t ∨ ∃ o', t.opening[place]? = some o' ∧
      o'.connection = o.connection ∧ o'.stream = o.stream ∧ o'.stage.left < o.stage.left := by
  obtain ⟨hlt, -⟩ := List.getElem?_eq_some_iff.1 hplace
  cases hstep with
  | number place' connection peer stream hplace' =>
    obtain rfl : place' = place := of_decide_eq_true hmove
    obtain rfl := Option.some.inj (hplace'.symm.trans hplace)
    exact .inr ⟨_, List.getElem?_set_self hlt, rfl, rfl, Nat.lt_succ_self _⟩
  | enter place' connection peer stream id hplace' =>
    obtain rfl : place' = place := of_decide_eq_true hmove
    obtain rfl := Option.some.inj (hplace'.symm.trans hplace)
    exact .inr ⟨_, List.getElem?_set_self hlt, rfl, rfl, Nat.lt_succ_self _⟩
  | launch place' connection peer stream id hplace' =>
    obtain rfl : place' = place := of_decide_eq_true hmove
    obtain rfl := Option.some.inj (hplace'.symm.trans hplace)
    exact .inl ⟨id, rfl⟩
  | _ => cases hmove

/-! ### Endless histories -/

section

variable {states : Nat → Server σ S} {moves : Nat → Move S}
  (hnext : ∀ n, (states n).step (moves n) = some (states (n + 1)))

include hnext

theorem placeAt_of_waiting {n : Nat} (hplace : (states n).opening[place]? = some o) (k : Nat)
    (hwaits : ∀ j < k, (moves (n + j)).opens (placeAt moves n place j) = false) :
    (states (n + k)).opening[placeAt moves n place k]? = some o := by
  induction k with
  | zero => exact hplace
  | succ k ih =>
    have hbefore := ih fun j hj => hwaits j (Nat.lt_succ_of_lt hj)
    exact place_step (.of_step (hnext (n + k))) hbefore (hwaits k (Nat.lt_succ_self k))

/-- If no call is left waiting for good, every call comes to its session. -/
theorem launched_of_opened (hopened : Opened states moves) {n : Nat}
    (hplace : (states n).opening[place]? = some o) :
    ∃ m ≥ n, Launched o (states m) (states (m + 1)) := by
  -- by induction on the number of steps that are left for the call
  induction hleft : o.stage.left using Nat.strongRecOn generalizing n place o with
  | ind left ih =>
    obtain ⟨hlt, -⟩ := List.getElem?_eq_some_iff.1 hplace
    have hsome := hopened n place hlt
    have hwaits : ∀ j < Nat.find hsome, (moves (n + j)).opens (placeAt moves n place j) = false :=
      fun j hj => by simpa using Nat.find_min hsome hj
    have hthen := placeAt_of_waiting hnext hplace (Nat.find hsome) hwaits
    rcases opens_step (.of_step (hnext _)) hthen (Nat.find_spec hsome) with
      hlaunched | ⟨o', hplace', hconnection, hstream, hless⟩
    · exact ⟨_, Nat.le_add_right _ _, hlaunched⟩
    · obtain ⟨m, hle, hlaunched⟩ := ih _ (hleft ▸ hless) hplace' rfl
      refine ⟨m, by omega, ?_⟩
      rw [Launched, ← hconnection, ← hstream]
      exact hlaunched

end

end Chaincode.Server

/-!
## Only a request stops a server

The receiver of the shutdown channel is handed to the server unread, and the server looks at it until it
has learned one thing (`attended_run`). If a request was sent, that is the request itself or that requests
were missed, whether or not a sender is left; if none was, it can only be that no sender is left, and then
the server goes on for good. So a server in which accepting does not fail stops exactly if it is asked to
(`only_requests_stop`), after finitely many moves and in endless histories.
-/

namespace Chaincode

namespace Shutdown

variable {x y : Shutdown} {heard : Heard}

theorem receive_of_unread (h : x.read < x.sent) :
    ∃ heard y, x.receive = some (heard, y) ∧ heard ≠ .noSender := by
  simp only [receive, if_pos h]
  split <;> exact ⟨_, _, rfl, by simp⟩

theorem receive_of_none (hsent : x.sent = 0) (hsenders : x.senders = 0) :
    x.receive = some (.noSender, x) := by
  simp [receive, hsent, hsenders]

theorem noSender_of_receive (h : x.receive = some (.noSender, y)) :
    y = x ∧ x.senders = 0 ∧ x.sent ≤ x.read := by
  simp only [receive] at h
  split at h
  · cases h
  · split at h
    · cases h
    · rename_i hread
      split at h
      · rename_i hsenders
        cases h
        exact ⟨rfl, hsenders, Nat.le_of_not_lt hread⟩
      · cases h

end Shutdown

namespace Server

variable {σ S : Type} [MessageStream S] {s t u : Server σ S} {name : String} {handler : Handler σ}
  {capacity : Nat} {move : Move S} {moves : List (Move S)}

/-! ### The channel and the loop -/

/-- How the shutdown channel and the loop stand to each other after the moves. -/
structure Attended (moves : List (Move S)) (s : Server σ S) : Prop where
  sent : .requestShutdown ∈ moves → s.shutdown.sent ≠ 0
  unread : s.stage = .serving → s.shutdown.read = 0
  forever : s.stage = .forever → s.shutdown.senders = 0 ∧ s.shutdown.sent = 0

theorem attended_step (hstep : Steps s move t) (h : Attended moves s) :
    Attended (moves ++ [move]) t := by
  have hold : move ≠ .requestShutdown → .requestShutdown ∈ moves ++ [move] → s.shutdown.sent ≠ 0 := by
    intro hne hmem
    rcases List.mem_append.1 hmem with hmem | hmem
    · exact h.sent hmem
    · exact absurd (List.mem_singleton.1 hmem).symm hne
  cases hstep with
  | requestShutdown shutdown hsend =>
    simp only [Shutdown.send] at hsend
    split at hsend <;> cases hsend
    rename_i hsenders
    exact ⟨fun _ => Nat.succ_ne_zero _, h.unread, fun hs => absurd (h.forever hs).1 hsenders⟩
  | copySender shutdown hcopy =>
    simp only [Shutdown.copySender] at hcopy
    split at hcopy <;> cases hcopy
    rename_i hsenders
    exact ⟨hold (by simp), h.unread, fun hs => absurd (h.forever hs).1 hsenders⟩
  | dropSender shutdown hdrop =>
    simp only [Shutdown.dropSender] at hdrop
    split at hdrop <;> cases hdrop
    rename_i hsenders
    exact ⟨hold (by simp), h.unread, fun hs => absurd (h.forever hs).1 hsenders⟩
  | goOn shutdown hs hreceive =>
    obtain ⟨rfl, hsenders, hsent⟩ := Shutdown.noSender_of_receive hreceive
    rw [h.unread hs] at hsent
    exact ⟨hold (by simp), by simp, fun _ => ⟨hsenders, Nat.le_zero.1 hsent⟩⟩
  | hear heard shutdown hs hreceive hheard =>
    obtain ⟨hsent, -⟩ := sent_of_receive hreceive
    refine ⟨fun hmem => ?_, by simp, by simp⟩
    rw [hsent]
    exact hold (by simp) hmem
  | failAccept | stop => exact ⟨hold (by simp), by simp, by simp⟩
  | _ => exact ⟨hold (by simp), h.unread, h.forever⟩

theorem attended_run (hrun : (fresh name handler capacity : Server σ S).run moves = some t) :
    Attended moves t :=
  run_induction (P := Attended) ⟨by simp, fun _ => rfl, fun hs => by cases hs⟩
    (fun _ _ _ _ _ h hstep => attended_step hstep h) hrun

theorem Attended.listen_of_sent (h : Attended moves s) (hrequest : .requestShutdown ∈ moves) :
    s.stage.accepts = false ∨ ∃ t, s.step .listen = some t ∧ t.stage.accepts = false := by
  have hsent := h.sent hrequest
  cases hs : s.stage with
  | serving =>
    obtain ⟨heard, shutdown, hreceive, hheard⟩ :=
      Shutdown.receive_of_unread (x := s.shutdown) (by rw [h.unread hs]; omega)
    refine .inr ⟨{ s with stage := .stopping, shutdown }, ?_, rfl⟩
    rw [step, hs, hreceive]
    cases heard with
    | noSender => exact absurd rfl hheard
    | request | missed => rfl
  | forever => exact absurd (h.forever hs).2 hsent
  | stopping | stopped => exact .inl rfl

theorem Steps.accepts (hstep : Steps s move t) (hs : s.stage.accepts = false) :
    t.stage.accepts = false := by
  cases hstep with
  | failAccept | hear | stop => rfl
  | goOn shutdown hs' =>
    rw [hs'] at hs
    cases hs
  | _ => exact hs

/-! ### Requests -/

/-- A server that has no end in sight and serves whoever comes. -/
structure Serves (name : String) (handler : Handler σ) (moves : List (Move S)) (t : Server σ S) :
    Prop where
  result : t.result? = none
  /-- Every new connection is accepted, -/
  accepts : ∀ connection ∉ t.connections, t.step (.connect connection) =
    some { t with connections := t.connections ++ [connection] }
  /-- every call on a connection is taken, -/
  takes : ∀ connection ∈ t.connections, ∀ peer stream,
    t.step (.call connection Protocol.connectPath peer stream) =
      some { t with opening := t.opening ++ [{ connection, peer, stream }] }
  /-- and a call that was taken can be given its session, which starts over the call's own stream. -/
  opens : ∀ place (o : Opening S), t.opening[place]? = some o → ∃ u id, t.run (o.rest place) = some u ∧
    u.served = t.served ++
      [{ id, connection := o.connection, conversation := .start name o.stream handler }]
  /-- Every call that was taken is being opened or has its session, which its own turns have brought to where
  it is. -/
  calls : ∃ origin : Nat → Option S,
    (moves.filterMap (·.call?)).Perm
      (t.opening.map (fun o => (o.connection, some o.stream)) ++
        t.served.map fun c => (c.connection, origin c.id)) ∧
    ∀ c ∈ t.served, ∃ stream, origin c.id = some stream ∧
      (Conversation.start name stream handler).proceed (turnsOf c.id moves) = some c.conversation

theorem serves_of_accepts (hrun : (fresh name handler capacity : Server σ S).run moves = some t)
    (haccepts : t.stage.accepts = true) : Serves name handler moves t where
  result := by
    rw [result?]
    cases hs : t.stage with
    | serving | forever | stopping => rfl
    | stopped =>
      rw [hs] at haccepts
      cases haccepts
  accepts connection hnew := by simp [step, haccepts, hnew]
  takes connection hconnection peer stream := by simp [step, route, hconnection]
  opens place o hplace := by
    obtain ⟨origin, hseparate⟩ := separate_run hrun
    obtain ⟨rfl, rfl⟩ := hseparate.made
    obtain ⟨u, hu, id, hserved⟩ := run_rest hplace
    exact ⟨u, id, hu, hserved⟩
  calls := by
    obtain ⟨origin, hseparate⟩ := separate_run hrun
    refine ⟨origin, hseparate.calls, fun c hc => ?_⟩
    obtain ⟨stream, horigin, halone⟩ := hseparate.alone c hc
    exact ⟨stream, horigin, halone.run⟩

/-- How a server in which accepting does not fail has taken the requests among the moves. -/
structure Heeds (name : String) (handler : Handler σ) (moves : List (Move S)) (t : Server σ S) :
    Prop where
  /-- It begins to stop only if it was asked to, -/
  asked : t.stage.accepts = false → .requestShutdown ∈ moves
  /-- and if it was, it has begun or does so when it looks for a request, -/
  begins : .requestShutdown ∈ moves → t.stage.accepts = false ∨
    ∃ u, t.step .listen = some u ∧ u.stage.accepts = false
  /-- for good. -/
  stays : t.stage.accepts = false → ∀ move u, t.step move = some u → u.stage.accepts = false
  /-- If it was not, it serves whoever comes, -/
  serves : .requestShutdown ∉ moves → Serves name handler moves t
  /-- and that no sender is left makes it serve forever. -/
  goesOn : .requestShutdown ∉ moves → t.shutdown.senders = 0 → t.stage = .forever ∨
    ∃ u, t.step .listen = some u ∧ u.stage = .forever

theorem heeds_run (hrun : (fresh name handler capacity : Server σ S).run moves = some t)
    (hfault : ∀ fault, .failAccept fault ∉ moves) : Heeds name handler moves t := by
  have hattended := attended_run hrun
  have hlooped := looped_run hrun
  have hasked : t.stage.accepts = false → .requestShutdown ∈ moves := fun hs =>
    (hlooped.stage hs).resolve_right fun ⟨fault, hmem⟩ => hfault fault hmem
  have haccepts : .requestShutdown ∉ moves → t.stage.accepts = true := by
    intro hrequest
    by_contra hne
    exact hrequest (hasked (by simpa using hne))
  refine ⟨hasked, hattended.listen_of_sent, fun hs move u hstep => (Steps.of_step hstep).accepts hs,
    fun hrequest => serves_of_accepts hrun (haccepts hrequest), fun hrequest hsenders => ?_⟩
  have hs := haccepts hrequest
  cases hstage : t.stage with
  | serving =>
    have hsent : t.shutdown.sent = 0 := by
      by_contra hne
      exact hrequest (hlooped.request hne)
    have hreceive := Shutdown.receive_of_none hsent hsenders
    exact .inr ⟨_, by rw [step, hstage, hreceive], rfl⟩
  | forever => exact .inl rfl
  | stopping | stopped =>
    rw [hstage] at hs
    cases hs

/-! ### Endless histories -/

/-- An endless history of a server in which accepting does not fail. As long as there is something to learn
from the shutdown channel, the server looks at it sooner or later. -/
structure Endless (name : String) (handler : Handler σ) (capacity : Nat) (states : Nat → Server σ S)
    (moves : Nat → Move S) : Prop where
  start : states 0 = fresh name handler capacity
  next : ∀ n, (states n).step (moves n) = some (states (n + 1))
  fault : ∀ n fault, moves n ≠ .failAccept fault
  listens : ∀ n, ∃ m ≥ n, moves m = .listen ∨ (states m).step .listen = none

section

variable {states : Nat → Server σ S} {moves : Nat → Move S}

theorem Endless.run (h : Endless name handler capacity states moves) (n : Nat) :
    (fresh name handler capacity : Server σ S).run ((List.range n).map moves) = some (states n) := by
  induction n with
  | zero => exact congrArg some h.start.symm
  | succ n ih =>
    rw [List.range_succ, List.map_append]
    exact run_concat.2 ⟨states n, ih, h.next n⟩

theorem Endless.heeds (h : Endless name handler capacity states moves) (n : Nat) :
    Heeds name handler ((List.range n).map moves) (states n) := by
  refine heeds_run (h.run n) fun fault hmem => ?_
  obtain ⟨m, -, hm⟩ := List.mem_map.1 hmem
  exact h.fault m fault hm

theorem Endless.begins_iff (h : Endless name handler capacity states moves) :
    (∃ n, (states n).stage.accepts = false) ↔ ∃ n, moves n = .requestShutdown := by
  constructor
  · rintro ⟨n, hs⟩
    obtain ⟨m, -, hm⟩ := List.mem_map.1 ((h.heeds n).asked hs)
    exact ⟨m, hm⟩
  · rintro ⟨n, hn⟩
    obtain ⟨m, hle, hlistens⟩ := h.listens (n + 1)
    have hrequest : .requestShutdown ∈ (List.range m).map moves :=
      List.mem_map.2 ⟨n, List.mem_range.2 hle, hn⟩
    rcases (h.heeds m).begins hrequest with hs | ⟨u, hstep, hs⟩
    · exact ⟨m, hs⟩
    · rcases hlistens with hm | hnone
      · have hnext := h.next m
        rw [hm, hstep] at hnext
        cases hnext
        exact ⟨m + 1, hs⟩
      · rw [hnone] at hstep
        cases hstep

theorem Endless.serves (h : Endless name handler capacity states moves)
    (hnever : ∀ n, moves n ≠ .requestShutdown) (n : Nat) :
    Serves name handler ((List.range n).map moves) (states n) := by
  refine (h.heeds n).serves fun hmem => ?_
  obtain ⟨m, -, hm⟩ := List.mem_map.1 hmem
  exact hnever m hm

theorem Endless.launches (h : Endless name handler capacity states moves) (hopened : Opened states moves)
    {n connection : Nat} {peer : Option String} {stream : S}
    (hcall : moves n = .call connection Protocol.connectPath peer stream) :
    ∃ m > n, ∃ id, (states (m + 1)).served = (states m).served ++
      [{ id, connection, conversation := .start name stream handler }] := by
  have hstep := h.next n
  rw [hcall] at hstep
  obtain ⟨place, hplace⟩ := (Steps.of_step hstep).opening_of_call
  obtain ⟨m, hle, id, hserved⟩ := launched_of_opened h.next hopened hplace
  obtain ⟨origin, hseparate⟩ := separate_run (h.run m)
  rw [hseparate.made.1, hseparate.made.2] at hserved
  exact ⟨m, hle, id, hserved⟩

end

/-- A run after which there is nothing to learn from the channel can go on forever with a move that changes
nothing. -/
theorem Endless.of_run (hrun : (fresh name handler capacity : Server σ S).run moves = some t)
    (hfault : ∀ fault, .failAccept fault ∉ moves) (hlisten : t.step .listen = none)
    (hstep : t.step move = some t) (hmove : ∀ fault, move ≠ .failAccept fault) :
    Endless name handler capacity
      (fun n => ((fresh name handler capacity : Server σ S).run (moves.take n)).getD t)
      fun n => moves[n]?.getD move where
  start := by simp [Server.run]
  next n := by
    by_cases hn : n < moves.length
    · obtain ⟨u, hu⟩ := run_take hrun (n + 1)
      have hlast := hu
      rw [← List.take_append_getElem hn] at hlast
      obtain ⟨v, hv, hvu⟩ := run_concat.1 hlast
      simp [hu, hv, hvu, hn]
    · have hle := Nat.le_of_not_lt hn
      simp [List.take_of_length_le, hle, Nat.le_succ_of_le hle, hrun, hstep]
  fault n fault := by
    by_cases hn : n < moves.length
    · have hmem : moves[n] ∈ moves := List.getElem_mem hn
      have hne : moves[n] ≠ .failAccept fault := fun heq => hfault fault (heq ▸ hmem)
      simpa [hn] using hne
    · simpa [Nat.le_of_not_lt hn] using hmove fault
  listens n := by
    refine ⟨n + moves.length, Nat.le_add_right _ _, .inr ?_⟩
    simp [List.take_of_length_le, hrun, hlisten]

/-- **Only a request stops a server.** Whatever happens on the shutdown channel and to the sessions, a server
in which accepting does not fail begins to stop exactly if it was asked to: also if the request was
overtaken by others and missed, or was the last thing a sender did. If it was not, it returns nothing and
opens a session for every call, also when no sender is left. -/
theorem only_requests_stop (name : String) (handler : Handler σ) (capacity : Nat) :
    (∀ (moves : List (Move S)) (t : Server σ S),
      (fresh name handler capacity).run moves = some t → (∀ fault, .failAccept fault ∉ moves) →
        Heeds name handler moves t) ∧
    ∀ (states : Nat → Server σ S) (moves : Nat → Move S),
      Endless name handler capacity states moves →
        ((∃ n, (states n).stage.accepts = false) ↔ ∃ n, moves n = .requestShutdown) ∧
        ((∀ n, moves n ≠ .requestShutdown) →
          ∀ n, Serves name handler ((List.range n).map moves) (states n)) ∧
        (Opened states moves → ∀ n connection peer stream,
          moves n = .call connection Protocol.connectPath peer stream →
            ∃ m > n, ∃ id, (states (m + 1)).served = (states m).served ++
              [{ id, connection, conversation := .start name stream handler }]) :=
  ⟨fun _ _ => heeds_run, fun _ _ h =>
    ⟨h.begins_iff, h.serves, fun hopened _ _ _ _ => h.launches hopened⟩⟩

/-- The only sender goes, the server learns of it, and a peer comes. -/
def afterTheLast : List (Move Loopback.Rigged) := [.dropSender, .listen] ++ admission 0 none lively 0

/-- Two requests where there is room for one, and the only sender goes before the server looks. -/
def lastWords : List (Move Loopback.Rigged) :=
  [.connect 0, .requestShutdown, .requestShutdown, .dropSender, .listen]

/-- The peer goes on with calls that nobody serves. -/
def moveOf (moves : List (Move Loopback.Rigged)) (n : Nat) : Move Loopback.Rigged :=
  moves[n]?.getD (.call 0 "" none lively)

theorem mem_of_moveOf {moves : List (Move Loopback.Rigged)} {move : Move Loopback.Rigged} {n : Nat}
    (h : moveOf moves n = move) : move ∈ moves ∨ move = .call 0 "" none lively := by
  rw [moveOf] at h
  cases hget : moves[n]? with
  | none => exact .inr (by rw [← h, hget]; rfl)
  | some move' =>
    refine .inl (List.mem_of_getElem? (i := n) ?_)
    rw [← h, hget]
    rfl

def stateOf (moves : List (Move Loopback.Rigged)) (n : Nat) : Server Unit Loopback.Rigged :=
  ((fresh "mycc" echo 1).run (moves.take n)).getD ((fresh "mycc" echo 1).attempt moves)

theorem only_requests_stop_lastWords :
    Heeds "mycc" echo lastWords (stateOf lastWords 5) ∧
    Endless "mycc" echo 1 (stateOf lastWords) (moveOf lastWords) ∧
    (∃ n, (stateOf lastWords n).stage.accepts = false) ∧
    Endless "mycc" echo 1 (stateOf afterTheLast) (moveOf afterTheLast) ∧
    (stateOf afterTheLast 2).stage = .forever ∧
    (∀ n, Serves "mycc" echo ((List.range n).map (moveOf afterTheLast)) (stateOf afterTheLast n)) ∧
    Opened (stateOf afterTheLast) (moveOf afterTheLast) ∧
    ∃ m > 3, ∃ id, (stateOf afterTheLast (m + 1)).served = (stateOf afterTheLast m).served ++
      [{ id, connection := 0, conversation := .start "mycc" lively echo }] := by
  obtain ⟨hfinite, hendless⟩ := only_requests_stop (S := Loopback.Rigged) "mycc" echo 1
  have hfault : ∀ fault, .failAccept fault ∉ lastWords := by simp [lastWords]
  have hfault' : ∀ fault, .failAccept fault ∉ afterTheLast := by simp [afterTheLast, admission]
  have hlast : Endless "mycc" echo 1 (stateOf lastWords) (moveOf lastWords) :=
    .of_run rfl hfault rfl rfl (by simp)
  have hafter : Endless "mycc" echo 1 (stateOf afterTheLast) (moveOf afterTheLast) :=
    .of_run rfl hfault' rfl rfl (by simp)
  have hnever : ∀ n, moveOf afterTheLast n ≠ .requestShutdown := by
    intro n hn
    rcases mem_of_moveOf hn with hmem | heq
    · simp [afterTheLast, admission] at hmem
    · cases heq
  -- as long as a call is being opened, the next move is a step of it
  have hearly : ∀ n < 7, ∀ place < (stateOf afterTheLast n).opening.length,
      (moveOf afterTheLast n).opens place = true := by decide +kernel
  have hopened : Opened (stateOf afterTheLast) (moveOf afterTheLast) := by
    intro n place hplace
    by_cases hn : n < 7
    · exact ⟨0, hearly n hn place hplace⟩
    · rw [stateOf, List.take_of_length_le (Nat.le_of_not_lt hn)] at hplace
      exact absurd hplace (Nat.not_lt_zero place)
  obtain ⟨hbegins, -, -⟩ := hendless _ _ hlast
  obtain ⟨-, hserves, hlaunches⟩ := hendless _ _ hafter
  exact ⟨hfinite lastWords _ rfl hfault, hlast, hbegins.2 ⟨1, rfl⟩, hafter, rfl, hserves hnever, hopened,
    hlaunches hopened 3 0 none lively rfl⟩

end Server

end Chaincode
