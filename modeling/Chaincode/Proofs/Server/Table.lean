import Chaincode.Proofs.Server.Independence

/-!
# The table of live sessions

The table holds the numbers of the calls whose entry has been made and whose session's task has not taken
it out again (`tabled_run`). Entries are made before a session is launched and taken out once, after it has
returned, so a session that is under way is always counted (`table_is_exact`). The numbers are as good as
unlimited as long as fewer than `2 ^ 64` calls are made.
-/

namespace Chaincode.Server

variable {σ S : Type}

/-! ## Live calls -/

/-- The number of the session, once its entry has been made. -/
def Opening.entered? (o : Opening S) : Option Nat :=
  match o.stage with
  | .arrived | .numbered _ => none
  | .entered id => some id

/-- The numbers of the calls whose entry has been made and not taken out. -/
def live (opening : List (Opening S)) (served : List (Served σ S)) : List Nat :=
  opening.filterMap (·.entered?) ++ (served.filter fun c => !c.gone).map (·.id)

/-- The session whose entry is taken out in a move. -/
def Move.removed? : Move S → Option Nat
  | .remove id => some id
  | _ => none

/-- Is an entry made in the move? -/
def Move.isEnter : Move S → Bool
  | .enter _ => true
  | _ => false

variable {s t : Server σ S} {move : Move S} {moves : List (Move S)} {id : Nat}
  {c : Served σ S} {opening rest : List (Opening S)} {served : List (Served σ S)}
  {f : Served σ S → Served σ S}

theorem Opening.id?_of_entered? {o : Opening S} (h : o.entered? = some id) : o.id? = some id := by
  rw [Opening.entered?] at h
  split at h
  · cases h
  · cases h
  · rename_i id' hs
    cases h
    rw [Opening.id?, hs]

theorem live_sublist (opening : List (Opening S)) (served : List (Served σ S)) :
    (live opening served).Sublist (numbers opening served) := by
  have hopening : (opening.filterMap (·.entered?)).Sublist (opening.filterMap (·.id?)) := by
    induction opening with
    | nil => exact .slnil
    | cons o opening ih =>
      cases h : o.entered? with
      | some id =>
        rw [List.filterMap_cons_some h, List.filterMap_cons_some (Opening.id?_of_entered? h)]
        exact ih.cons_cons id
      | none =>
        rw [List.filterMap_cons_none h]
        refine ih.trans ?_
        cases hid : o.id? with
        | some id =>
          rw [List.filterMap_cons_some hid]
          exact List.sublist_cons_self id _
        | none => rw [List.filterMap_cons_none hid]
  exact hopening.append (List.filter_sublist.map _)

theorem live_of_perm {o : Opening S} (served : List (Served σ S)) (h : opening.Perm (o :: rest)) :
    (live opening served).Perm (o.entered?.toList ++ live rest served) := by
  rw [live, live, ← List.append_assoc]
  exact (filterMap_of_perm _ h).append_right _

theorem live_update (hf : ∀ c, (f c).id = c.id ∧ (f c).gone = c.gone) :
    live s.opening (s.update id f).served = live s.opening s.served := by
  rw [live, live, map_filter_update _ _ fun c => ⟨by rw [(hf c).2], (hf c).1⟩]

theorem mem_live (hc : c ∈ t.served) (hgone : c.gone = false) : c.id ∈ live t.opening t.served := by
  refine List.mem_append_right _ (List.mem_map.2 ⟨c, List.mem_filter.2 ⟨hc, ?_⟩, rfl⟩)
  rw [hgone]
  rfl

theorem length_live (opening : List (Opening S)) (served : List (Served σ S)) :
    (live opening served).length + ((served.filter (·.gone)).map (·.id)).length =
      (opening.filterMap (·.entered?)).length + served.length := by
  have hserved := List.length_eq_countP_add_countP (·.gone) (l := served)
  rw [live, List.length_append, List.length_map, List.length_map, ← List.countP_eq_length_filter,
    ← List.countP_eq_length_filter]
  simp only [Bool.not_eq_true, Bool.decide_eq_false] at hserved
  omega

theorem filter_ne_perm {xs ys : List Nat} {x : Nat} (h : xs.Perm (x :: ys)) (hx : x ∉ ys) :
    (xs.filter (· ≠ x)).Perm ys := by
  refine (h.filter _).trans (List.Perm.of_eq ?_)
  rw [List.filter_cons_of_neg (by simp), List.filter_eq_self]
  intro y hy
  rw [decide_eq_true_eq]
  rintro rfl
  exact hx hy

/-! ## Every entry is made and taken out -/

/-- The entries are those of the live calls. -/
def Tabled (table : List Entry) (opening : List (Opening S)) (served : List (Served σ S)) : Prop :=
  (table.map (·.id)).Perm (live opening served)

theorem key_of_lt (h : id < UInt64.size) : key id = id := UInt64.toNat_ofNat_of_lt h

theorem Tabled.update (h : Tabled s.table s.opening s.served)
    (hf : ∀ c, (f c).id = c.id ∧ (f c).gone = c.gone) :
    Tabled s.table s.opening (s.update id f).served := by
  rw [Tabled, live_update hf]
  exact h

/-! ## Everything is counted -/

/-- What the moves have come to, by number. -/
structure Counted (moves : List (Move S)) (next : Nat) (opening : List (Opening S))
    (served : List (Served σ S)) : Prop where
  /-- Every call has a number or is to get one. -/
  calls : (moves.filterMap (·.call?)).length + 1 = next + opening.countP (·.id?.isNone)
  entries : moves.countP (·.isEnter) = (opening.filterMap (·.entered?)).length + served.length
  removed : (moves.filterMap (·.removed?)).Perm ((served.filter (·.gone)).map (·.id))

theorem counts_concat (moves : List (Move S)) (move : Move S) :
    ((moves ++ [move]).filterMap (·.call?)).length =
        (moves.filterMap (·.call?)).length + move.call?.toList.length ∧
      (moves ++ [move]).countP (·.isEnter) = moves.countP (·.isEnter) + move.isEnter.toNat ∧
      (moves ++ [move]).filterMap (·.removed?) =
        moves.filterMap (·.removed?) ++ move.removed?.toList := by
  refine ⟨?_, ?_, ?_⟩
  · cases h : move.call? <;> simp [h]
  · cases h : move.isEnter <;> simp [h]
  · cases h : move.removed? <;> simp [h]

theorem Counted.quiet {next : Nat} (h : Counted moves next opening served) (hcall : move.call? = none)
    (henter : move.isEnter = false) (hremoved : move.removed? = none) :
    Counted (moves ++ [move]) next opening served := by
  obtain ⟨hcalls, hentries, hremoves⟩ := counts_concat moves move
  rw [hcall] at hcalls
  rw [henter] at hentries
  rw [hremoved, Option.toList_none, List.append_nil] at hremoves
  exact ⟨by rw [hcalls]; exact h.calls, by rw [hentries]; exact h.entries,
    by rw [hremoves]; exact h.removed⟩

theorem Counted.update (h : Counted moves s.next s.opening s.served)
    (hf : ∀ c, (f c).id = c.id ∧ (f c).gone = c.gone) :
    Counted moves s.next s.opening (s.update id f).served where
  calls := h.calls
  entries := by simpa [Server.update] using h.entries
  removed := by
    rw [map_filter_update _ _ fun c => ⟨(hf c).2, (hf c).1⟩]
    exact h.removed

theorem countP_of_perm {o : Opening S} (h : opening.Perm (o :: rest)) :
    opening.countP (·.id?.isNone) = rest.countP (·.id?.isNone) + o.id?.isNone.toNat ∧
      (opening.filterMap (·.entered?)).length =
        (rest.filterMap (·.entered?)).length + o.entered?.toList.length := by
  constructor
  · rw [h.countP_eq, List.countP_cons]
    cases o.id?.isNone <;> rfl
  · rw [(filterMap_of_perm _ h).length_eq, List.length_append, Nat.add_comm]

/-! ## Every move -/

variable [MessageStream S]

theorem tabled_step (hnumbered : Numbered s.next s.opening s.served) (hstep : Steps s move t)
    (hbound : t.next ≤ UInt64.size) (h : Tabled s.table s.opening s.served) :
    Tabled t.table t.opening t.served := by
  cases hstep with
  | call connection path peer stream hconnection hroute =>
    simpa [Tabled, live, Opening.entered?] using h
  | number place connection peer stream hplace =>
    obtain ⟨hbefore, hafter⟩ := perm_place ⟨connection, peer, stream, .numbered s.next⟩ hplace
    exact h.trans ((live_of_perm s.served hbefore).trans (live_of_perm s.served hafter).symm)
  | enter place connection peer stream id hplace =>
    obtain ⟨hbefore, hafter⟩ := perm_place ⟨connection, peer, stream, .entered id⟩ hplace
    have hnumbers := numbers_of_perm s.served hbefore
    have hlt : id < s.next := hnumbered.lt id (hnumbers.mem_iff.2 List.mem_cons_self)
    have hkey : key id = id := key_of_lt (Nat.lt_of_lt_of_le hlt hbound)
    -- no other call has the number, so no entry is replaced
    have hfresh : id ∉ live (s.opening.eraseIdx place) s.served := fun hmem =>
      (List.nodup_cons.1 (hnumbers.nodup_iff.1 hnumbered.nodup)).1 ((live_sublist _ _).subset hmem)
    have hold : (s.table.map (·.id)).Perm (live (s.opening.eraseIdx place) s.served) :=
      h.trans (live_of_perm s.served hbefore)
    have htable : s.table.filter (·.id ≠ key id) = s.table := by
      rw [List.filter_eq_self]
      intro entry hentry
      rw [hkey, decide_eq_true_eq]
      rintro rfl
      exact hfresh (hold.mem_iff.1 (List.mem_map.2 ⟨entry, hentry, rfl⟩))
    rw [Tabled, Server.enter, htable, hkey, List.map_append]
    exact (List.perm_append_singleton id _).trans
      ((hold.cons id).trans (live_of_perm s.served hafter).symm)
  | launch place connection peer stream id hplace =>
    obtain ⟨hbefore, -⟩ := perm_place ⟨connection, peer, stream, .entered id⟩ hplace
    refine h.trans ((live_of_perm s.served hbefore).trans ?_)
    have hlaunched : live (s.opening.eraseIdx place) (s.served ++
        [{ id, connection, conversation := .start s.name stream s.handler }]) =
          live (s.opening.eraseIdx place) s.served ++ [id] := by
      simp [live]
    rw [hlaunched]
    exact (List.perm_append_singleton id _).symm
  | within | shift | complete | giveUp => exact h.update fun _ => ⟨rfl, rfl⟩
  | remove id c hfind hresult hgone =>
    obtain ⟨hmem, rfl⟩ := mem_of_find? hfind
    obtain ⟨before, after, hserved, hupdate⟩ := hnumbered.update_served hmem
    have hlt : c.id < s.next :=
      hnumbered.lt c.id (List.mem_append_right _ (List.mem_map.2 ⟨c, hmem, rfl⟩))
    have hkey : key c.id = c.id := key_of_lt (Nat.lt_of_lt_of_le hlt hbound)
    have hperm : (live s.opening s.served).Perm
        (c.id :: live s.opening (before ++ { c with gone := true } :: after)) := by
      simp only [live, hserved, List.filter_append, List.filter_cons, hgone, Bool.not_false,
        Bool.not_true, if_true, List.map_append, List.map_cons]
      rw [← List.append_assoc, ← List.append_assoc]
      exact List.perm_middle
    have hnodup := hperm.nodup_iff.1 (hnumbered.nodup.sublist (live_sublist s.opening s.served))
    have htable : (s.table.filter (·.id ≠ key c.id)).map (·.id) =
        (s.table.map (·.id)).filter (· ≠ c.id) := by
      rw [hkey, List.filter_map]
      rfl
    rw [Tabled, hupdate, htable]
    exact filter_ne_perm (h.trans hperm) (List.nodup_cons.1 hnodup).1
  | _ => exact h

theorem Steps.next_le (hstep : Steps s move t) : s.next ≤ t.next := by
  cases hstep with
  | number => exact Nat.le_succ _
  | _ => exact Nat.le_refl _

theorem counted_step (hnumbered : Numbered s.next s.opening s.served)
    (hstep : Steps s move t) (h : Counted moves s.next s.opening s.served) :
    Counted (moves ++ [move]) t.next t.opening t.served := by
  have ⟨hcalls, hentries, hremoved⟩ := h
  obtain ⟨hcalls', hentries', hremoved'⟩ := counts_concat moves move
  cases hstep with
  | call connection path peer stream hconnection hroute =>
    have hcall : (Move.call connection path peer stream).call? = some (connection, some stream) := by
      simp [Move.call?, hroute]
    obtain ⟨hwaiting, hentered⟩ := countP_of_perm
      (List.perm_append_singleton ({ connection, peer, stream } : Opening S) s.opening)
    refine ⟨?_, ?_, ?_⟩
    · rw [hcalls', hwaiting, hcall]
      exact congrArg Nat.succ hcalls
    · rw [hentries', hentered]
      exact hentries
    · rw [hremoved']
      simpa [Move.removed?] using hremoved
  | refuse connection path peer stream status hconnection hroute =>
    exact Counted.quiet ⟨hcalls, hentries, hremoved⟩ (by simp [Move.call?, hroute]) rfl rfl
  | number place connection peer stream hplace =>
    obtain ⟨hbefore, hafter⟩ := perm_place ⟨connection, peer, stream, .numbered s.next⟩ hplace
    obtain ⟨hwaiting, hentered⟩ := countP_of_perm hbefore
    obtain ⟨hwaiting', hentered'⟩ := countP_of_perm hafter
    refine Counted.quiet ⟨?_, ?_, hremoved⟩ rfl rfl rfl
    · rw [hcalls, hwaiting, hwaiting']
      simp [Opening.id?]
      omega
    · rw [hentries, hentered, hentered']
      rfl
  | enter place connection peer stream id hplace =>
    obtain ⟨hbefore, hafter⟩ := perm_place ⟨connection, peer, stream, .entered id⟩ hplace
    obtain ⟨hwaiting, hentered⟩ := countP_of_perm hbefore
    obtain ⟨hwaiting', hentered'⟩ := countP_of_perm hafter
    have hcounted : Counted (moves ++ [.enter place]) s.next
        (s.opening.set place ⟨connection, peer, stream, .entered id⟩) s.served := by
      refine ⟨?_, ?_, ?_⟩
      · rw [hcalls', hwaiting']
        rw [hwaiting] at hcalls
        exact hcalls
      · rw [hentries', hentries, hentered, hentered']
        simp [Move.isEnter, Opening.entered?]
        omega
      · rw [hremoved']
        simpa [Move.removed?] using hremoved
    exact hcounted
  | launch place connection peer stream id hplace =>
    obtain ⟨hbefore, -⟩ := perm_place ⟨connection, peer, stream, .entered id⟩ hplace
    obtain ⟨hwaiting, hentered⟩ := countP_of_perm hbefore
    refine Counted.quiet ⟨?_, ?_, ?_⟩ rfl rfl rfl
    · rw [hcalls, hwaiting]
      rfl
    · rw [hentries, hentered, List.length_append]
      simp [Opening.entered?]
      omega
    · simpa using hremoved
  | within | shift | complete | giveUp =>
    refine Counted.quiet ?_ rfl rfl rfl
    exact h.update fun _ => ⟨rfl, rfl⟩
  | remove id c hfind hresult hgone =>
    obtain ⟨hmem, rfl⟩ := mem_of_find? hfind
    obtain ⟨before, after, hserved, hupdate⟩ := hnumbered.update_served hmem
    refine ⟨?_, ?_, ?_⟩
    · rw [hcalls']
      exact hcalls
    · rw [hentries', hentries, hupdate, hserved, List.length_append, List.length_append]
      rfl
    · rw [hremoved', hupdate]
      refine (List.perm_append_singleton c.id _).trans ((hremoved.cons c.id).trans ?_)
      rw [hserved]
      simp only [List.filter_append, List.filter_cons, hgone, Bool.false_eq_true, if_false, if_true,
        List.map_append, List.map_cons]
      exact List.perm_middle.symm
  | _ => exact Counted.quiet ⟨hcalls, hentries, hremoved⟩ rfl rfl rfl

theorem gone_step (hnumbered : Numbered s.next s.opening s.served) (hstep : Steps s move t)
    (h : ∀ c ∈ s.served, c.gone = true → c.Returned) : ∀ c ∈ t.served, c.gone = true → c.Returned := by
  intro c hc hgone
  rcases served_step hnumbered hstep hc with ⟨-, -, -, hgone', -⟩ | ⟨c', hc', hfollows⟩
  · rw [hgone'] at hgone
    cases hgone
  · rcases hfollows.gone with hsame | ⟨-, hreturned⟩
    · exact hfollows.returned (h c' hc' (hsame ▸ hgone))
    · exact hreturned

/-! ## Every run -/

section

variable {name : String} {handler : Handler σ} {capacity : Nat}

theorem counted_run (hrun : (fresh name handler capacity : Server σ S).run moves = some t) :
    Counted moves t.next t.opening t.served := by
  refine run_induction (P := fun moves t => Counted moves t.next t.opening t.served) ?_
    (fun moves move t u hbefore h hstep => counted_step (numbered_run hbefore) hstep h) hrun
  constructor <;> simp [fresh]

theorem tabled_run (hrun : (fresh name handler capacity : Server σ S).run moves = some t)
    (hbound : t.next ≤ UInt64.size) : Tabled t.table t.opening t.served := by
  refine run_induction (P := fun _ t => t.next ≤ UInt64.size → Tabled t.table t.opening t.served) ?_
    (fun moves move t u hbefore h hstep hbound => ?_) hrun hbound
  · simp [Tabled, live, fresh]
  · exact tabled_step (numbered_run hbefore) hstep hbound (h (Nat.le_trans hstep.next_le hbound))

theorem gone_run (hrun : (fresh name handler capacity : Server σ S).run moves = some t) :
    ∀ c ∈ t.served, c.gone = true → c.Returned :=
  run_induction (P := fun _ t => ∀ c ∈ t.served, c.gone = true → c.Returned) (by simp [fresh])
    (fun _ _ _ _ hbefore h hstep => gone_step (numbered_run hbefore) hstep h) hrun

end

/-- What the table of live sessions says after the moves, in which the streams were asked for
`traffic`. -/
structure Exact (moves : List (Move S)) (traffic : List (Nat × Party × Use)) (t : Server σ S) : Prop where
  /-- No number is used for two calls. -/
  numbers : (numbers t.opening t.served).Nodup
  /-- There is one entry for every call whose entry has been made and not taken out. -/
  entries : (t.table.map (·.id)).Perm (live t.opening t.served)
  once : (t.table.map (·.id)).Nodup
  /-- An entry is taken out once, -/
  removed : (moves.filterMap (·.removed?)).Perm ((t.served.filter (·.gone)).map (·.id))
  /-- after the session has returned. -/
  gone : ∀ c ∈ t.served, c.gone = true → c.Returned
  /-- The task of a session that has returned can take the entry out. -/
  leaves : ∀ c ∈ t.served, c.Returned → c.gone = false → (t.step (.remove c.id)).isSome = true
  active : t.activeSessions + (moves.filterMap (·.removed?)).length = moves.countP (·.isEnter)
  /-- A session that has not returned is counted. -/
  counted : ∀ c ∈ t.served, ¬ c.Returned → c.id ∈ t.table.map (·.id)
  /-- A session asks nothing of its stream before it is launched. -/
  launched : ∀ id, trafficOf id traffic ≠ [] → id ∈ t.served.map (·.id)
  /-- A call of another method is told that nobody implements it, and that is all. -/
  others : ∀ connection path peer stream, path ≠ Protocol.connectPath →
    (∃ message, route path = .error { code := .unimplemented, message }) ∧
      ∀ u, t.step (.call connection path peer stream) = some u → u = t

theorem route_of_ne {path : String} (h : path ≠ Protocol.connectPath) :
    ∃ message, route path = .error { code := .unimplemented, message } := by
  simp only [route, h, if_false]
  split
  · exact ⟨_, rfl⟩
  · exact ⟨"", rfl⟩

/-- **The table of live sessions is exact.** With fewer than `2 ^ 64` calls, in whatever order they are
opened, launched, ended and cleared away, it has one entry for each whose entry has been made and not
taken out. The entry is there before the session asks anything of its stream, and until it has returned. -/
theorem table_is_exact {name : String} {handler : Handler σ} {capacity : Nat}
    (hrun : (fresh name handler capacity : Server σ S).run moves = some t)
    (hcalls : (moves.filterMap (·.call?)).length < UInt64.size) :
    Exact moves ((fresh name handler capacity : Server σ S).traffic moves) t := by
  have hnumbered := numbered_run hrun
  have hcounted := counted_run hrun
  have hbound : t.next ≤ UInt64.size := by
    have hcount := hcounted.calls
    omega
  have htabled := tabled_run hrun hbound
  have hgone := gone_run hrun
  obtain ⟨origin, hseparate⟩ := separate_run hrun
  refine ⟨hnumbered.nodup, htabled, ?_, hcounted.removed, hgone, ?_, ?_, ?_, ?_, ?_⟩
  · exact htabled.nodup_iff.2 (hnumbered.nodup.sublist (live_sublist t.opening t.served))
  · intro c hc hreturned hstays
    have hresult : c.conversation.session.result?.isSome = true := hreturned
    simp [step, hnumbered.find?_eq hc, hresult, hstays]
  · have htable : t.activeSessions = (live t.opening t.served).length := by
      rw [← htabled.length_eq, List.length_map]
      rfl
    rw [htable, hcounted.removed.length_eq, hcounted.entries]
    exact length_live t.opening t.served
  · intro c hc hreturned
    refine htabled.mem_iff.2 (mem_live hc ?_)
    by_contra hne
    exact hreturned (hgone c hc (by simpa using hne))
  · intro id htraffic
    by_contra hid
    exact htraffic (hseparate.idle id hid).2
  · intro connection path peer stream hpath
    obtain ⟨message, hroute⟩ := route_of_ne hpath
    refine ⟨⟨message, hroute⟩, fun u hstep => ?_⟩
    cases Steps.of_step hstep with
    | call _ _ _ _ _ hroute' =>
      rw [hroute] at hroute'
      cases hroute'
    | refuse => rfl

/-- A peer that says nothing, and one that has hung up. -/
def silent : Loopback.Rigged := {}

def gone : Loopback.Rigged where
  loopback := { hungUp := true }

/-- The session of a peer that is gone registers, returns and is cleared away; a call of a method that
nobody implements and another session, which registers, come between. -/
def comingAndGoing : List (Move Loopback.Rigged) :=
  admission 0 none gone 0 ++ [.within 1 .register, .within 1 .beginReceive, .within 1 .receive,
    .call 0 "/protos.Chaincode/Chat" none silent] ++ admission 1 none silent 0 ++
    [.within 1 .handOver, .within 1 .takeResult, .within 2 .register, .within 1 .close, .remove 1]

theorem table_is_exact_comingAndGoing : (comingAndGoing.filterMap (·.call?)).length < UInt64.size ∧
    ∃ t, (fresh "mycc" echo 16).run comingAndGoing = some t ∧ t.table.map (·.id) = [2] ∧
      Exact comingAndGoing ((fresh "mycc" echo 16).traffic comingAndGoing) t := by
  have hcalls : (comingAndGoing.filterMap (·.call?)).length < UInt64.size := by decide
  have htable : ((fresh "mycc" echo 16).run comingAndGoing).map (fun t => t.table.map (·.id)) =
      some [2] := by rfl
  obtain ⟨t, hrun, htable⟩ := Option.map_eq_some_iff.1 htable
  exact ⟨hcalls, t, hrun, htable, table_is_exact hrun hcalls⟩

end Chaincode.Server
