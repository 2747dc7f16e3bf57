import Chaincode.Proofs.Server.Table

/-!
# What a stopped server leaves behind

A server that is to stop waits for its connections, and a connection whose calls have been answered to
the end has no session under way (`served_stopped`). But it is the connections that it waits for: a call
that its caller has given up, or whose connection was dropped, is no longer waited for, and its session may
outlast the server. Nor does it wait until the entry of a session that has returned is taken out.
-/

namespace Chaincode.Server

variable {σ S : Type} [MessageStream S] {s t : Server σ S} {move : Move S} {moves : List (Move S)}

/-- The connection is not finished, or was dropped by the peer. -/
def Held (moves : List (Move S)) (s : Server σ S) (connection : Nat) : Prop :=
  connection ∈ s.connections ∨ .disconnect connection ∈ moves

/-- Why the server may be done with a call: its connection was dropped, or the call has been answered, which
takes a session that has returned or a caller that has given up. -/
structure Awaited (moves : List (Move S)) (s : Server σ S) : Prop where
  opening : ∀ o ∈ s.opening, Held moves s o.connection
  served : ∀ c ∈ s.served, c.answered = true ∨ Held moves s c.connection
  answered : ∀ c ∈ s.served, c.answered = true → c.Returned ∨ .giveUp c.id ∈ moves
  stopped : s.stage = .stopped → s.connections = []

/-- A connection that is held stays so until nothing on it is to be waited for. -/
theorem held_step (hstep : Steps s move t) {connection : Nat} (h : Held moves s connection) :
    Held (moves ++ [move]) t connection ∨ (∀ o ∈ s.opening, o.connection ≠ connection) ∧
      ∀ c ∈ s.served, c.connection = connection → c.answered = true := by
  rcases h with h | hdropped
  · cases hstep with
    | connect => exact .inl (.inl (List.mem_append_left _ h))
    | finish connection' hconnection hopening hserved =>
      by_cases heq : connection = connection'
      · subst heq
        exact .inr ⟨hopening, hserved⟩
      · exact .inl (.inl ((List.mem_erase_of_ne heq).2 h))
    | disconnect connection' hconnection =>
      by_cases heq : connection = connection'
      · subst heq
        exact .inl (.inr (by simp))
      · exact .inl (.inl ((List.mem_erase_of_ne heq).2 h))
    | _ => exact .inl (.inl h)
  · exact .inl (.inr (List.mem_append_left _ hdropped))

theorem opening_step (hstep : Steps s move t) {o : Opening S} (ho : o ∈ t.opening) :
    o.connection ∈ t.connections ∨ ∃ o' ∈ s.opening, o'.connection = o.connection := by
  have hset : ∀ {place : Nat} {x y : Opening S}, s.opening[place]? = some x →
      o ∈ s.opening.set place y → y.connection = x.connection →
        ∃ o' ∈ s.opening, o'.connection = o.connection := by
    intro place x y hplace ho hxy
    rcases List.mem_or_eq_of_mem_set ho with ho | rfl
    · exact ⟨o, ho, rfl⟩
    · exact ⟨x, List.mem_of_getElem? hplace, hxy.symm⟩
  cases hstep with
  | call connection path peer stream hconnection hroute =>
    rcases List.mem_append.1 ho with ho | ho
    · exact .inr ⟨o, ho, rfl⟩
    · obtain rfl := List.mem_singleton.1 ho
      exact .inl hconnection
  | number place connection peer stream hplace => exact .inr (hset hplace ho rfl)
  | enter place connection peer stream id hplace => exact .inr (hset hplace ho rfl)
  | launch place => exact .inr ⟨o, List.mem_of_mem_eraseIdx ho, rfl⟩
  | _ => exact .inr ⟨o, ho, rfl⟩

theorem stopped_step (hstep : Steps s move t) (h : s.stage = .stopped → s.connections = [])
    (ht : t.stage = .stopped) : t.connections = [] := by
  cases hstep with
  | connect connection haccepts =>
    have hs : s.stage = .stopped := ht
    rw [hs] at haccepts
    cases haccepts
  | finish | disconnect =>
    have hs : s.stage = .stopped := ht
    simp [h hs]
  | failAccept | goOn | hear => cases ht
  | stop hs hconnections => exact hconnections
  | _ => exact h ht

theorem awaited_step (hnumbered : Numbered s.next s.opening s.served) (hstep : Steps s move t)
    (h : Awaited moves s) : Awaited (moves ++ [move]) t where
  opening := by
    intro o ho
    rcases opening_step hstep ho with hconnection | ⟨o', ho', heq⟩
    · exact .inl hconnection
    · rw [← heq]
      exact (held_step hstep (h.opening o' ho')).resolve_right fun ⟨hopening, _⟩ => hopening o' ho' rfl
  served := by
    intro c hc
    rcases served_step hnumbered hstep hc with ⟨peer, stream, ho, -⟩ | ⟨c', hc', hfollows⟩
    · have hheld := held_step hstep (h.opening _ ho)
      exact .inr (hheld.resolve_right fun ⟨hopening, _⟩ => hopening _ ho rfl)
    · rw [hfollows.connection]
      rcases h.served c' hc' with hanswered | hheld
      · exact .inl (hfollows.stays hanswered)
      · rcases held_step hstep hheld with hheld | ⟨-, hserved⟩
        · exact .inr hheld
        · exact .inl (hfollows.stays (hserved c' hc' rfl))
  answered := by
    intro c hc hanswered
    rcases served_step hnumbered hstep hc with ⟨-, -, -, -, hnot⟩ | ⟨c', hc', hfollows⟩
    · rw [hnot] at hanswered
      cases hanswered
    · rw [hfollows.id]
      rcases hfollows.answered hanswered with hold | hreturned | rfl
      · rcases h.answered c' hc' hold with hreturned | hgiven
        · exact .inl (hfollows.returned hreturned)
        · exact .inr (List.mem_append_left _ hgiven)
      · exact .inl hreturned
      · exact .inr (by simp)
  stopped := stopped_step hstep h.stopped

/-- **A stopped server leaves no session under way but those that nobody waits for.** When the server
returns without a fault, every call on a connection that the peer did not drop has been opened, and its
session has returned unless the caller has given the call up. -/
theorem served_stopped {name : String} {handler : Handler σ} {capacity : Nat}
    (hrun : (fresh name handler capacity : Server σ S).run moves = some t)
    (hresult : t.result? = some (.ok ())) :
    (∀ o ∈ t.opening, .disconnect o.connection ∈ moves) ∧
      ∀ c ∈ t.served, c.Returned ∨ .giveUp c.id ∈ moves ∨ .disconnect c.connection ∈ moves := by
  have hawaited : Awaited moves t := by
    refine run_induction (P := Awaited) ?_ (fun moves move t u hbefore h hstep => ?_) hrun
    · constructor <;> simp [fresh]
    · exact awaited_step (numbered_run hbefore) hstep h
  have hs : t.stage = .stopped := by
    rw [result?] at hresult
    split at hresult
    · assumption
    · cases hresult
    · cases hresult
  have hconnections := hawaited.stopped hs
  have hheld : ∀ connection, Held moves t connection → .disconnect connection ∈ moves := by
    intro connection h
    rw [Held, hconnections] at h
    exact h.resolve_left List.not_mem_nil
  refine ⟨fun o ho => hheld _ (hawaited.opening o ho), fun c hc => ?_⟩
  rcases hawaited.served c hc with hanswered | h
  · exact (hawaited.answered c hc hanswered).imp_right .inl
  · exact .inr (.inr (hheld _ h))

/-- A peer that has queued an invocation, and a handler that waits in the middle of its work on it. -/
def invoking : Loopback.Rigged where
  loopback := { inbound := [.ok (.ofKind .init [])] }

def waiting : Handler (List Reaction) := scripted [] (.custom true [] (.ok ()))

/-- The moves in which a session comes to work on its first message. -/
def atWork : List (Move Loopback.Rigged) :=
  admission 0 none invoking 0 ++
    [.register, .beginReceive, .receive, .handOver, .takeResult].map (.within 1)

/-- If the peer drops its connection meanwhile, the server returns with the session under way. -/
example : ((fresh "mycc" waiting 16).run
    (atWork ++ [.requestShutdown, .disconnect 0, .listen, .stop])).map
      (fun t => (t.result?, t.table.map (·.id), t.served.map (·.conversation.session.result?))) =
    some (some (.ok ()), [1], [none]) := rfl

end Chaincode.Server
