import Mathlib.Data.List.Induction
import Mathlib.Data.List.Nodup
import Mathlib.Data.List.Perm.Basic
import Chaincode.Proofs.Conversation.Ledger
import Chaincode.Server

/-!
# What a server can do

`Steps` lists the ways in which a server moves, one constructor for each, with everything that is known
when it happens (`Steps.of_step`); no proof about runs opens `Server.step`. What holds at the start and
is kept by every move holds after every run (`run_induction`). The calls that have got a number are told
apart by it (`numbered_run`), and a move changes little of a call that is served (`served_step`).
-/

namespace Chaincode.Server

variable {σ S : Type} {s t u : Server σ S} {move : Move S} {moves : List (Move S)} {id : Nat}
  {c : Served σ S} {f : Served σ S → Served σ S}

/-- A server of the chaincode `name` that nobody has called. The channel for its shutdown has one
sender and keeps `capacity` requests. -/
def fresh (name : String) (handler : Handler σ) (capacity : Nat) : Server σ S :=
  { name, handler, shutdown := { capacity } }

/-! ## Moves -/

/-- The ways in which a server moves. -/
inductive Steps [MessageStream S] (s : Server σ S) : Move S → Server σ S → Prop where
  | connect (connection : Nat) (haccepts : s.stage.accepts = true)
      (hnew : connection ∉ s.connections) :
      Steps s (.connect connection) { s with connections := s.connections ++ [connection] }
  | call (connection : Nat) (path : String) (peer : Option String) (stream : S)
      (hconnection : connection ∈ s.connections) (hroute : route path = .ok ()) :
      Steps s (.call connection path peer stream)
        { s with opening := s.opening ++ [{ connection, peer, stream }] }
  /-- The path is none that is served. -/
  | refuse (connection : Nat) (path : String) (peer : Option String) (stream : S) (status : Status)
      (hconnection : connection ∈ s.connections) (hroute : route path = .error status) :
      Steps s (.call connection path peer stream) s
  | number (place connection : Nat) (peer : Option String) (stream : S)
      (hplace : s.opening[place]? = some ⟨connection, peer, stream, .arrived⟩) :
      Steps s (.number place)
        { s with
          next := s.next + 1
          opening := s.opening.set place ⟨connection, peer, stream, .numbered s.next⟩ }
  | enter (place connection : Nat) (peer : Option String) (stream : S) (id : Nat)
      (hplace : s.opening[place]? = some ⟨connection, peer, stream, .numbered id⟩) :
      Steps s (.enter place)
        { s.enter id peer with
          opening := s.opening.set place ⟨connection, peer, stream, .entered id⟩ }
  | launch (place connection : Nat) (peer : Option String) (stream : S) (id : Nat)
      (hplace : s.opening[place]? = some ⟨connection, peer, stream, .entered id⟩) :
      Steps s (.launch place)
        { s with
          opening := s.opening.eraseIdx place
          served := s.served ++ [{ id, connection, conversation := .start s.name stream s.handler }] }
  | within (id : Nat) (move : Chaincode.Move) (c : Served σ S) (d : Conversation σ S)
      (hfind : s.find? id = some c) (hstep : c.conversation.step move = some d) :
      Steps s (.within id move) (s.update id fun c => { c with conversation := d })
  | shift (id : Nat) (stream : S) (c : Served σ S) (hfind : s.find? id = some c) :
      Steps s (.shift id stream) (s.update id fun c => { c with conversation.stream := stream })
  | remove (id : Nat) (c : Served σ S) (hfind : s.find? id = some c)
      (hresult : c.conversation.session.result?.isSome = true) (hgone : c.gone = false) :
      Steps s (.remove id)
        { s.update id fun c => { c with gone := true } with
          table := s.table.filter (·.id ≠ key id) }
  | complete (id : Nat) (c : Served σ S) (hfind : s.find? id = some c)
      (hresult : c.conversation.session.result?.isSome = true) :
      Steps s (.complete id) (s.update id fun c => { c with answered := true })
  | giveUp (id : Nat) (c : Served σ S) (hfind : s.find? id = some c) :
      Steps s (.giveUp id) (s.update id fun c => { c with answered := true })
  | finish (connection : Nat) (hconnection : connection ∈ s.connections)
      (hopening : ∀ o ∈ s.opening, o.connection ≠ connection)
      (hserved : ∀ c ∈ s.served, c.connection = connection → c.answered = true) :
      Steps s (.finish connection) { s with connections := s.connections.erase connection }
  | disconnect (connection : Nat) (hconnection : connection ∈ s.connections) :
      Steps s (.disconnect connection) { s with connections := s.connections.erase connection }
  | failAccept (fault : SystemFault) (haccepts : s.stage.accepts = true) :
      Steps s (.failAccept fault) { s with stage := .stopping, acceptFault := some fault }
  | requestShutdown (shutdown : Shutdown) (hsend : s.shutdown.send = some shutdown) :
      Steps s .requestShutdown { s with shutdown }
  | copySender (shutdown : Shutdown) (hcopy : s.shutdown.copySender = some shutdown) :
      Steps s .copySender { s with shutdown }
  | dropSender (shutdown : Shutdown) (hdrop : s.shutdown.dropSender = some shutdown) :
      Steps s .dropSender { s with shutdown }
  /-- Nobody can stop the server any more. -/
  | goOn (shutdown : Shutdown) (hs : s.stage = .serving)
      (hreceive : s.shutdown.receive = some (.noSender, shutdown)) :
      Steps s .listen { s with stage := .forever, shutdown }
  | hear (heard : Shutdown.Heard) (shutdown : Shutdown) (hs : s.stage = .serving)
      (hreceive : s.shutdown.receive = some (heard, shutdown)) (hheard : heard ≠ .noSender) :
      Steps s .listen { s with stage := .stopping, shutdown }
  | stop (hs : s.stage = .stopping) (hconnections : s.connections = []) :
      Steps s .stop { s with stage := .stopped }

section

variable [MessageStream S]

theorem Steps.of_step (h : s.step move = some t) : Steps s move t := by
  cases move with
  | connect connection =>
    simp only [step] at h
    split at h
    · rename_i hcond
      cases h
      simp only [Bool.and_eq_true, Bool.not_eq_true', List.contains_eq_mem, decide_eq_false_iff_not] at hcond
      exact .connect connection hcond.1 hcond.2
    · cases h
  | call connection path peer stream =>
    simp only [step] at h
    split at h
    · rename_i hcond
      have hconnection : connection ∈ s.connections := List.contains_iff_mem.1 hcond
      split at h
      · rename_i hroute
        cases h
        exact .call connection path peer stream hconnection hroute
      · rename_i status hroute
        cases h
        exact .refuse connection path peer stream status hconnection hroute
    · cases h
  | number place =>
    simp only [step] at h
    split at h
    · rename_i connection peer stream hplace
      cases h
      exact .number place connection peer stream hplace
    · cases h
  | enter place =>
    simp only [step] at h
    split at h
    · rename_i connection peer stream id hplace
      cases h
      exact .enter place connection peer stream id hplace
    · cases h
  | launch place =>
    simp only [step] at h
    split at h
    · rename_i connection peer stream id hplace
      cases h
      exact .launch place connection peer stream id hplace
    · cases h
  | within id move =>
    obtain ⟨c, hfind, h⟩ := Option.bind_eq_some_iff.1 h
    obtain ⟨d, hstep, h⟩ := Option.bind_eq_some_iff.1 h
    cases h
    exact .within id move c d hfind hstep
  | shift id stream =>
    obtain ⟨c, hfind, h⟩ := Option.bind_eq_some_iff.1 h
    cases h
    exact .shift id stream c hfind
  | remove id =>
    obtain ⟨c, hfind, h⟩ := Option.bind_eq_some_iff.1 h
    split at h
    · rename_i hcond
      cases h
      simp only [Bool.and_eq_true, Bool.not_eq_true'] at hcond
      exact .remove id c hfind hcond.1 hcond.2
    · cases h
  | complete id =>
    obtain ⟨c, hfind, h⟩ := Option.bind_eq_some_iff.1 h
    split at h
    · rename_i hresult
      cases h
      exact .complete id c hfind hresult
    · cases h
  | giveUp id =>
    obtain ⟨c, hfind, h⟩ := Option.bind_eq_some_iff.1 h
    cases h
    exact .giveUp id c hfind
  | finish connection =>
    simp only [step] at h
    split at h
    · rename_i hcond
      cases h
      simp only [Bool.and_eq_true, List.contains_iff_mem, List.all_eq_true, bne_iff_ne,
        Bool.or_eq_true] at hcond
      obtain ⟨⟨hconnection, hopening⟩, hserved⟩ := hcond
      exact .finish connection hconnection hopening fun c hc hcc =>
        (hserved c hc).resolve_left fun hne => hne hcc
    · cases h
  | disconnect connection =>
    simp only [step] at h
    split at h
    · rename_i hcond
      cases h
      exact .disconnect connection (List.contains_iff_mem.1 hcond)
    · cases h
  | failAccept fault =>
    simp only [step] at h
    split at h
    · rename_i haccepts
      cases h
      exact .failAccept fault haccepts
    · cases h
  | requestShutdown =>
    obtain ⟨shutdown, hsend, rfl⟩ := Option.map_eq_some_iff.1 h
    exact .requestShutdown shutdown hsend
  | copySender =>
    obtain ⟨shutdown, hcopy, rfl⟩ := Option.map_eq_some_iff.1 h
    exact .copySender shutdown hcopy
  | dropSender =>
    obtain ⟨shutdown, hdrop, rfl⟩ := Option.map_eq_some_iff.1 h
    exact .dropSender shutdown hdrop
  | listen =>
    simp only [step] at h
    split at h
    · rename_i shutdown hs hreceive
      cases h
      exact .goOn shutdown hs hreceive
    · rename_i heard shutdown hheard hs hreceive
      cases h
      exact .hear heard shutdown hs hreceive hheard
    · cases h
  | stop =>
    simp only [step] at h
    split at h
    · rename_i hs hconnections
      cases h
      exact .stop hs hconnections
    · cases h

/-! ## Runs -/

theorem run_concat : s.run (moves ++ [move]) = some u ↔
    ∃ t, s.run moves = some t ∧ t.step move = some u := by
  induction moves generalizing s with
  | nil => simp [run]
  | cons first moves ih =>
    simp only [List.cons_append, run, Option.bind_eq_some_iff]
    constructor
    · rintro ⟨s', hfirst, hrest⟩
      obtain ⟨t, hrun, hstep⟩ := ih.1 hrest
      exact ⟨t, ⟨s', hfirst, hrun⟩, hstep⟩
    · rintro ⟨t, ⟨s', hfirst, hrun⟩, hstep⟩
      exact ⟨s', hfirst, ih.2 ⟨t, hrun, hstep⟩⟩

theorem run_take (hrun : s.run moves = some t) (n : Nat) : ∃ u, s.run (moves.take n) = some u := by
  induction moves generalizing s n with
  | nil => exact ⟨t, by simpa using hrun⟩
  | cons move moves ih =>
    cases n with
    | zero => exact ⟨s, rfl⟩
    | succ n =>
      obtain ⟨s', hstep, hrest⟩ := Option.bind_eq_some_iff.1 hrun
      obtain ⟨u, hu⟩ := ih hrest n
      exact ⟨u, Option.bind_eq_some_iff.2 ⟨s', hstep, hu⟩⟩

theorem run_induction {P : List (Move S) → Server σ S → Prop} (start : P [] s)
    (next : ∀ moves move t u, s.run moves = some t → P moves t → Steps t move u →
      P (moves ++ [move]) u)
    (hrun : s.run moves = some t) : P moves t := by
  induction moves using List.reverseRecOn generalizing t with
  | nil =>
    cases hrun
    exact start
  | append_singleton moves move ih =>
    obtain ⟨t', hbefore, hstep⟩ := run_concat.1 hrun
    exact next moves move t' t hbefore (ih hbefore) (.of_step hstep)

end

/-! ## Calls that are served -/

theorem mem_update : c ∈ (s.update id f).served ↔
    ∃ c' ∈ s.served, c = if c'.id = id then f c' else c' := by
  simp only [update, List.mem_map, eq_comm]

/-- What is changed in a call and does not show in `g` changes nothing that is read off the calls by
`g`, nor in those that `p` picks. -/
theorem map_filter_update {β : Type} {i : Nat} (p : Served σ S → Bool) (g : Served σ S → β)
    (hf : ∀ c, p (f c) = p c ∧ g (f c) = g c) :
    ((s.update i f).served.filter p).map g = (s.served.filter p).map g := by
  rw [update, List.filter_map, List.map_map]
  have hpick : ∀ c ∈ s.served, (p ∘ fun c => if c.id = i then f c else c) c = p c := by
    intro c _
    by_cases hid : c.id = i <;> simp [hid, hf c]
  rw [List.filter_congr hpick]
  refine List.map_congr_left fun c _ => ?_
  by_cases hid : c.id = i <;> simp [hid, hf c]

theorem map_update {β : Type} {i : Nat} (g : Served σ S → β) (hf : ∀ c, g (f c) = g c) :
    (s.update i f).served.map g = s.served.map g := by
  simpa using map_filter_update (fun _ => true) g fun c => ⟨rfl, hf c⟩

theorem update_congr {g : Served σ S → Served σ S} (h : ∀ c ∈ s.served, c.id = id → f c = g c) :
    s.update id f = s.update id g := by
  have hserved : (s.served.map fun c => if c.id = id then f c else c) =
      s.served.map fun c => if c.id = id then g c else c := by
    refine List.map_congr_left fun c hc => ?_
    by_cases hid : c.id = id
    · rw [if_pos hid, if_pos hid, h c hc hid]
    · rw [if_neg hid, if_neg hid]
  rw [update, update, hserved]

theorem mem_of_find? (h : s.find? id = some c) : c ∈ s.served ∧ c.id = id :=
  ⟨List.mem_of_find?_eq_some h, by simpa using List.find?_some h⟩

/-! ## Numbers -/

namespace Opening

/-- The number of the session, once the call has got it. -/
def id? (o : Opening S) : Option Nat :=
  match o.stage with
  | .arrived => none
  | .numbered id | .entered id => some id

end Opening

/-- The numbers that calls have got, those of the calls being opened first. -/
def numbers (opening : List (Opening S)) (served : List (Served σ S)) : List Nat :=
  opening.filterMap (·.id?) ++ served.map (·.id)

/-- No two calls have the same number, and none has the next. -/
structure Numbered (next : Nat) (opening : List (Opening S)) (served : List (Served σ S)) : Prop where
  nodup : (numbers opening served).Nodup
  lt : ∀ id ∈ numbers opening served, id < next

theorem filterMap_of_perm {α β : Type} {xs rest : List α} {x : α} (f : α → Option β)
    (h : xs.Perm (x :: rest)) : (xs.filterMap f).Perm ((f x).toList ++ rest.filterMap f) := by
  refine (h.filterMap f).trans (List.Perm.of_eq ?_)
  cases hx : f x <;> simp [hx]

theorem numbers_of_perm {opening rest : List (Opening S)} {o : Opening S} (served : List (Served σ S))
    (h : opening.Perm (o :: rest)) :
    (numbers opening served).Perm (o.id?.toList ++ numbers rest served) := by
  rw [numbers, numbers, ← List.append_assoc]
  exact (filterMap_of_perm _ h).append_right _

theorem Numbered.of_perm {next : Nat} {opening opening' : List (Opening S)}
    {served served' : List (Served σ S)} (h : Numbered next opening served)
    (hperm : (numbers opening' served').Perm (numbers opening served)) :
    Numbered next opening' served' where
  nodup := hperm.nodup_iff.2 h.nodup
  lt id hid := h.lt id (hperm.mem_iff.1 hid)

theorem Numbered.served_nodup {next : Nat} {opening : List (Opening S)} {served : List (Served σ S)}
    (h : Numbered next opening served) : (served.map (·.id)).Nodup := (List.nodup_append.1 h.nodup).2.1

theorem Numbered.eq_of_id {next : Nat} {opening : List (Opening S)} {served : List (Served σ S)}
    (h : Numbered next opening served) {c c' : Served σ S} (hc : c ∈ served) (hc' : c' ∈ served)
    (hid : c.id = c'.id) : c = c' := List.inj_on_of_nodup_map h.served_nodup hc hc' hid

theorem Numbered.find?_eq (h : Numbered s.next s.opening s.served) (hc : c ∈ s.served) :
    s.find? c.id = some c := by
  have hsome : (s.find? c.id).isSome = true := List.find?_isSome.2 ⟨c, hc, by simp⟩
  obtain ⟨c', hfind⟩ := Option.isSome_iff_exists.1 hsome
  obtain ⟨hc', hid⟩ := mem_of_find? hfind
  rw [hfind, h.eq_of_id hc' hc hid]

theorem Numbered.update_served (h : Numbered s.next s.opening s.served) (hc : c ∈ s.served) :
    ∃ before after, s.served = before ++ c :: after ∧
      ∀ f, (s.update c.id f).served = before ++ f c :: after := by
  obtain ⟨before, after, hserved⟩ := List.append_of_mem hc
  refine ⟨before, after, hserved, fun f => ?_⟩
  have hnodup := h.served_nodup
  rw [hserved, List.map_append, List.map_cons, List.nodup_middle, List.nodup_cons, List.mem_append,
    not_or] at hnodup
  have hkeep : ∀ calls : List (Served σ S), c.id ∉ calls.map (·.id) →
      calls.map (fun c' => if c'.id = c.id then f c' else c') = calls := by
    intro calls hcalls
    refine (List.map_congr_left fun c' hc' => if_neg ?_).trans (List.map_id calls)
    rintro hid
    exact hcalls (List.mem_map.2 ⟨c', hc', hid⟩)
  rw [update]
  simp only [hserved, List.map_append, List.map_cons, if_pos]
  rw [hkeep before hnodup.1.1, hkeep after hnodup.1.2]

theorem numbered_update (h : Numbered s.next s.opening s.served) (hf : ∀ c, (f c).id = c.id) :
    Numbered s.next s.opening (s.update id f).served := by
  refine h.of_perm (List.Perm.of_eq ?_)
  rw [numbers, numbers, map_update (·.id) hf]

theorem perm_place {α : Type} {xs : List α} {place : Nat} {x : α} (y : α)
    (hplace : xs[place]? = some x) :
    xs.Perm (x :: xs.eraseIdx place) ∧ (xs.set place y).Perm (y :: xs.eraseIdx place) := by
  obtain ⟨hlt, rfl⟩ := List.getElem?_eq_some_iff.1 hplace
  exact ⟨(List.getElem_cons_eraseIdx_perm hlt).symm, List.set_perm_cons_eraseIdx hlt y⟩

theorem numbered_step [MessageStream S] (hstep : Steps s move t) (h : Numbered s.next s.opening s.served) :
    Numbered t.next t.opening t.served := by
  cases hstep with
  | call connection path peer stream hconnection hroute =>
    refine h.of_perm (List.Perm.of_eq ?_)
    simp [numbers, Opening.id?]
  | number place connection peer stream hplace =>
    obtain ⟨hbefore, hafter⟩ := perm_place ⟨connection, peer, stream, .numbered s.next⟩ hplace
    have hnumbers := (numbers_of_perm s.served hafter).trans
      ((numbers_of_perm s.served hbefore).symm.cons s.next)
    refine ⟨hnumbers.nodup_iff.2 (List.nodup_cons.2 ⟨fun hmem => ?_, h.nodup⟩), fun id hid => ?_⟩
    · exact Nat.lt_irrefl _ (h.lt _ hmem)
    · rcases List.mem_cons.1 (hnumbers.mem_iff.1 hid) with rfl | hid
      · exact Nat.lt_succ_self _
      · exact Nat.lt_succ_of_lt (h.lt id hid)
  | enter place connection peer stream id hplace =>
    obtain ⟨hbefore, hafter⟩ := perm_place ⟨connection, peer, stream, .entered id⟩ hplace
    exact h.of_perm ((numbers_of_perm s.served hafter).trans (numbers_of_perm s.served hbefore).symm)
  | launch place connection peer stream id hplace =>
    obtain ⟨hbefore, -⟩ := perm_place ⟨connection, peer, stream, .entered id⟩ hplace
    refine h.of_perm (List.Perm.trans ?_ (numbers_of_perm s.served hbefore).symm)
    rw [numbers, List.map_append, ← List.append_assoc]
    exact List.perm_append_singleton id _
  | within | shift | remove | complete | giveUp => exact numbered_update h fun _ => rfl
  | _ => exact h

theorem numbered_run [MessageStream S] {name : String} {handler : Handler σ} {capacity : Nat}
    (hrun : (fresh name handler capacity : Server σ S).run moves = some s) :
    Numbered s.next s.opening s.served :=
  run_induction (P := fun _ s => Numbered s.next s.opening s.served)
    ⟨by simp [numbers, fresh], by simp [numbers, fresh]⟩
    (fun _ _ _ _ _ h hstep => numbered_step hstep h) hrun

/-! ## What becomes of a call that is served -/

/-- Has the session returned? -/
def Served.Returned (c : Served σ S) : Prop := c.conversation.session.result?.isSome = true

/-- What a move can have done to a call that is served. -/
structure Follows (move : Move S) (c c' : Served σ S) : Prop where
  id : c'.id = c.id
  connection : c'.connection = c.connection
  returned : c.Returned → c'.Returned
  gone : c'.gone = c.gone ∨ c'.gone = true ∧ c'.Returned
  stays : c.answered = true → c'.answered = true
  answered : c'.answered = true → c.answered = true ∨ c'.Returned ∨ move = .giveUp c.id

theorem Follows.of_same {move : Move S} {c c' : Served σ S} (hid : c'.id = c.id)
    (hconnection : c'.connection = c.connection) (hreturned : c.Returned → c'.Returned)
    (hgone : c'.gone = c.gone) (hanswered : c'.answered = c.answered) : Follows move c c' where
  id := hid
  connection := hconnection
  returned := hreturned
  gone := .inl hgone
  stays h := hanswered.trans h
  answered h := .inl (hanswered.symm.trans h)

theorem Follows.refl (move : Move S) (c : Served σ S) : Follows move c c :=
  .of_same rfl rfl (fun h => h) rfl rfl

theorem follows_update (hf : ∀ c ∈ s.served, c.id = id → Follows move c (f c))
    (hc : c ∈ (s.update id f).served) : ∃ c' ∈ s.served, Follows move c' c := by
  obtain ⟨c, hmem, rfl⟩ := mem_update.1 hc
  refine ⟨c, hmem, ?_⟩
  by_cases hid : c.id = id
  · rw [if_pos hid]
    exact hf c hmem hid
  · rw [if_neg hid]
    exact .refl move c

theorem served_step [MessageStream S] (hnumbered : Numbered s.next s.opening s.served)
    (hstep : Steps s move t) (hc : c ∈ t.served) :
    (∃ peer stream, ⟨c.connection, peer, stream, .entered c.id⟩ ∈ s.opening ∧ c.gone = false ∧
      c.answered = false) ∨ ∃ c' ∈ s.served, Follows move c' c := by
  cases hstep with
  | launch place connection peer stream id hplace =>
    rcases List.mem_append.1 hc with hc | hc
    · exact .inr ⟨c, hc, .refl _ c⟩
    · obtain rfl := List.mem_singleton.1 hc
      exact .inl ⟨peer, stream, List.mem_of_getElem? hplace, rfl, rfl⟩
  | within id move c₀ d hfind hstep =>
    obtain ⟨hmem, rfl⟩ := mem_of_find? hfind
    refine .inr (follows_update (fun c hc hid => ?_) hc)
    obtain rfl : c = c₀ := hnumbered.eq_of_id hc hmem hid
    have hturn : c.conversation.turn (.move move) = some d := hstep
    exact .of_same rfl rfl (Conversation.turn_returned hturn) rfl rfl
  | remove id c₀ hfind hresult =>
    obtain ⟨hmem, rfl⟩ := mem_of_find? hfind
    refine .inr (follows_update (fun c hc hid => ?_) hc)
    obtain rfl : c = c₀ := hnumbered.eq_of_id hc hmem hid
    exact ⟨rfl, rfl, fun h => h, .inr ⟨rfl, hresult⟩, fun h => h, .inl⟩
  | complete id c₀ hfind hresult =>
    obtain ⟨hmem, rfl⟩ := mem_of_find? hfind
    refine .inr (follows_update (fun c hc hid => ?_) hc)
    obtain rfl : c = c₀ := hnumbered.eq_of_id hc hmem hid
    exact ⟨rfl, rfl, fun h => h, .inl rfl, fun _ => rfl, fun _ => .inr (.inl hresult)⟩
  | shift id stream =>
    refine .inr (follows_update (fun c _ _ => ?_) hc)
    exact .of_same rfl rfl (fun h => h) rfl rfl
  | giveUp id =>
    refine .inr (follows_update (fun c _ hid => ?_) hc)
    subst hid
    exact ⟨rfl, rfl, fun h => h, .inl rfl, fun _ => rfl, fun _ => .inr (.inr rfl)⟩
  | _ => exact .inr ⟨c, hc, .refl _ c⟩

end Chaincode.Server
