import Chaincode.Proofs.Server.Steps

/-!
# Sessions of a server go their own ways

The moves of a server that concern one session, taken alone, are the turns of a conversation over the
stream of its call (`Independent`), whatever lies between them: the table, the numbers and the connections
that all sessions share decide nothing for any of them. What a session may do next its own conversation
says, and what becomes of it is no matter to the loop that accepts connections.
-/

namespace Chaincode.Server

variable {σ S : Type}

/-! ## What concerns one session -/

/-- The turn of the session `id` in a move, if the move is its own. -/
def Move.turn? (id : Nat) : Move S → Option (Turn S)
  | .within id' move => if id' = id then some (.move move) else none
  | .shift id' stream => if id' = id then some (.shift stream) else none
  | _ => none

/-- The turns of the session `id` in a run. -/
def turnsOf (id : Nat) (moves : List (Move S)) : List (Turn S) := moves.filterMap (Move.turn? id)

/-- The call that a peer makes in a move, if it is one that is served: its connection and its stream. -/
def Move.call? : Move S → Option (Nat × Option S)
  | .call connection path _ stream =>
    match route path with
    | .ok () => some (connection, some stream)
    | .error _ => none
  | _ => none

/-- Is the move a session's, its caller's, or that of the task in which it runs? -/
def Move.isSession : Move S → Bool
  | .within _ _ | .shift _ _ | .remove _ | .complete _ | .giveUp _ => true
  | _ => false

/-- What the session `id` has asked of its stream. -/
def trafficOf (id : Nat) (traffic : List (Nat × Party × Use)) : List (Party × Use) :=
  traffic.filterMap fun (id', entry) => if id' = id then some entry else none

theorem turnsOf_concat (id : Nat) (moves : List (Move S)) (move : Move S) :
    turnsOf id (moves ++ [move]) = turnsOf id moves ++ (move.turn? id).toList := by
  rw [turnsOf, List.filterMap_append]
  cases h : move.turn? id <;> simp [turnsOf, h]

theorem trafficOf_append (id : Nat) (traffic traffic' : List (Nat × Party × Use)) :
    trafficOf id (traffic ++ traffic') = trafficOf id traffic ++ trafficOf id traffic' :=
  List.filterMap_append

theorem trafficOf_own (id : Nat) (record : List (Party × Use)) :
    trafficOf id (record.map (id, ·)) = record := by
  simp [trafficOf, List.filterMap_map]

theorem trafficOf_other {id id' : Nat} (hne : id' ≠ id) (record : List (Party × Use)) :
    trafficOf id (record.map (id', ·)) = [] := by
  simp [trafficOf, List.filterMap_map, hne]

section

variable [MessageStream S]

/-- What is asked of the streams in a move, with the number of the session that asks. -/
def uses (s : Server σ S) : Move S → List (Nat × Party × Use)
  | .within id move =>
    match s.find? id with
    | some c => (c.conversation.uses [move]).map (id, ·)
    | none => []
  | _ => []

/-- What is asked of the streams in a run, oldest first. -/
def traffic (s : Server σ S) : List (Move S) → List (Nat × Party × Use)
  | [] => []
  | move :: rest =>
    s.uses move ++
      match s.step move with
      | some t => t.traffic rest
      | none => []

theorem traffic_concat {s t : Server σ S} {moves : List (Move S)} {move : Move S}
    (hrun : s.run moves = some t) : s.traffic (moves ++ [move]) = s.traffic moves ++ t.uses move := by
  induction moves generalizing s with
  | nil =>
    cases hrun
    rw [List.nil_append, traffic, traffic, List.nil_append]
    cases t.step move <;> simp [traffic]
  | cons first moves ih =>
    obtain ⟨s', hfirst, hrest⟩ := Option.bind_eq_some_iff.1 hrun
    rw [List.cons_append, traffic, traffic, hfirst]
    simp only [ih hrest, List.append_assoc]

end

/-! ## Each session alone -/

variable [MessageStream S] {s t u : Server σ S} {name : String} {handler : Handler σ} {capacity : Nat}
  {moves : List (Move S)} {move : Move S} {traffic : List (Nat × Party × Use)} {origin : Nat → Option S}
  {id : Nat} {c : Served σ S} {f : Served σ S → Served σ S}

/-- The session is where its own turns alone bring a session of the chaincode `name` over `stream`, and has
asked of its stream what they ask. -/
structure Alone (name : String) (handler : Handler σ) (moves : List (Move S))
    (traffic : List (Nat × Party × Use)) (stream : S) (c : Served σ S) : Prop where
  run : (Conversation.start name stream handler).proceed (turnsOf c.id moves) = some c.conversation
  traffic : trafficOf c.id traffic = (Conversation.start name stream handler).record (turnsOf c.id moves)

/-- How the sessions of a server stand after a run: the one with the number `id` has the stream
`origin id`. -/
structure Separate (name : String) (handler : Handler σ) (moves : List (Move S))
    (traffic : List (Nat × Party × Use)) (origin : Nat → Option S) (s : Server σ S) : Prop where
  made : s.name = name ∧ s.handler = handler
  /-- Every call is being opened or has its session. -/
  calls : (moves.filterMap (·.call?)).Perm
    (s.opening.map (fun o => (o.connection, some o.stream)) ++
      s.served.map fun c => (c.connection, origin c.id))
  alone : ∀ c ∈ s.served, ∃ stream, origin c.id = some stream ∧
    Alone name handler moves traffic stream c
  idle : ∀ id, id ∉ s.served.map (·.id) → turnsOf id moves = [] ∧ trafficOf id traffic = []

theorem Separate.origin_eq (h : Separate name handler moves traffic origin s) (hc : c ∈ s.served) {stream : S}
    (hcalls : ∀ stream', (c.connection, stream') ∈ moves.filterMap (·.call?) → stream' = some stream) :
    origin c.id = some stream := by
  refine hcalls _ (h.calls.mem_iff.2 (List.mem_append_right _ ?_))
  exact List.mem_map.2 ⟨c, hc, rfl⟩

theorem Separate.quiet (h : Separate name handler moves traffic origin u)
    (hturn : ∀ id, move.turn? id = none) (hcall : move.call? = none) (huses : s.uses move = []) :
    Separate name handler (moves ++ [move]) (traffic ++ s.uses move) origin u := by
  have hturns : ∀ id, turnsOf id (moves ++ [move]) = turnsOf id moves := by
    intro id
    rw [turnsOf_concat, hturn, Option.toList_none, List.append_nil]
  have hcalls : (moves ++ [move]).filterMap (·.call?) = moves.filterMap (·.call?) := by
    simp [hcall]
  rw [huses, List.append_nil]
  refine ⟨h.made, ?_, ?_, ?_⟩
  · rw [hcalls]
    exact h.calls
  · intro c hc
    obtain ⟨stream, horigin, hrun, htraffic⟩ := h.alone c hc
    exact ⟨stream, horigin, by rw [hturns]; exact hrun, by rw [hturns]; exact htraffic⟩
  · intro id hid
    rw [hturns]
    exact h.idle id hid

theorem Separate.mark {i : Nat} (h : Separate name handler moves traffic origin s)
    (hf : ∀ c, (f c).id = c.id ∧ (f c).connection = c.connection ∧ (f c).conversation = c.conversation) :
    Separate name handler moves traffic origin (s.update i f) where
  made := h.made
  calls := by
    rw [map_update (fun c => (c.connection, origin c.id)) fun c => by rw [(hf c).1, (hf c).2.1]]
    exact h.calls
  alone := by
    intro c hc
    obtain ⟨c, hmem, rfl⟩ := mem_update.1 hc
    by_cases hid : c.id = i
    · obtain ⟨hid', -, hconversation⟩ := hf c
      obtain ⟨stream, horigin, hrun, htraffic⟩ := h.alone c hmem
      rw [if_pos hid, hid']
      refine ⟨stream, horigin, ?_, ?_⟩
      · rw [hid', hconversation]
        exact hrun
      · rw [hid']
        exact htraffic
    · rw [if_neg hid]
      exact h.alone c hmem
  idle := by
    intro id' hid
    rw [map_update (·.id) fun c => (hf c).1] at hid
    exact h.idle id' hid

theorem Separate.turn (h : Separate name handler moves traffic origin s)
    (hnumbered : Numbered s.next s.opening s.served) (hfind : s.find? id = some c) {turn : Turn S}
    {d : Conversation σ S} (hturn : c.conversation.turn turn = some d)
    (hmove : ∀ id', move.turn? id' = if id = id' then some turn else none) (hcall : move.call? = none)
    (huses : s.uses move = (c.conversation.turnUses turn).map (id, ·)) :
    Separate name handler (moves ++ [move]) (traffic ++ s.uses move) origin
      (s.update id fun c => { c with conversation := d }) where
  made := h.made
  calls := by
    have hserved := map_update (s := s) (i := id) (f := fun c => { c with conversation := d })
      (fun c => (c.connection, origin c.id)) fun _ => rfl
    have hquiet : [move].filterMap (·.call?) = [] := by simp [hcall]
    rw [hserved, List.filterMap_append, hquiet, List.append_nil]
    exact h.calls
  alone := by
    obtain ⟨hmem, rfl⟩ := mem_of_find? hfind
    intro c' hc'
    obtain ⟨c', hmem', rfl⟩ := mem_update.1 hc'
    by_cases hid : c'.id = c.id
    · obtain rfl : c' = c := hnumbered.eq_of_id hmem' hmem hid
      obtain ⟨stream, horigin, hrun, htraffic⟩ := h.alone c' hmem
      rw [if_pos rfl]
      refine ⟨stream, horigin, ?_, ?_⟩
      · rw [turnsOf_concat, hmove, if_pos rfl]
        exact Conversation.proceed_concat.2 ⟨c'.conversation, hrun, hturn⟩
      · rw [turnsOf_concat, hmove, if_pos rfl, trafficOf_append, huses, trafficOf_own, htraffic]
        exact (Conversation.record_concat hrun).symm
    · obtain ⟨stream, horigin, hrun, htraffic⟩ := h.alone c' hmem'
      rw [if_neg hid]
      have hturns : turnsOf c'.id (moves ++ [move]) = turnsOf c'.id moves := by
        rw [turnsOf_concat, hmove, if_neg (Ne.symm hid), Option.toList_none, List.append_nil]
      refine ⟨stream, horigin, ?_, ?_⟩
      · rw [hturns]
        exact hrun
      · rw [hturns, trafficOf_append, huses, trafficOf_other (Ne.symm hid), List.append_nil]
        exact htraffic
  idle := by
    obtain ⟨hmem, rfl⟩ := mem_of_find? hfind
    intro id' hid
    have hids := map_update (s := s) (i := c.id) (f := fun c => { c with conversation := d }) (·.id)
      fun _ => rfl
    rw [hids] at hid
    have hne : c.id ≠ id' := by
      rintro rfl
      exact hid (List.mem_map.2 ⟨c, hmem, rfl⟩)
    obtain ⟨hturns, htraffic⟩ := h.idle id' hid
    rw [turnsOf_concat, hmove, if_neg hne, hturns, trafficOf_append, huses, trafficOf_other hne, htraffic]
    exact ⟨rfl, rfl⟩

theorem Separate.launch (h : Separate name handler moves traffic origin s)
    (hnumbered : Numbered s.next s.opening s.served) {place connection : Nat} {peer : Option String}
    {stream : S} (hplace : s.opening[place]? = some ⟨connection, peer, stream, .entered id⟩) :
    ∃ origin', Separate name handler moves traffic origin'
      { s with
        opening := s.opening.eraseIdx place
        served := s.served ++ [{ id, connection, conversation := .start s.name stream s.handler }] } := by
  obtain ⟨hperm, -⟩ := perm_place ⟨connection, peer, stream, .entered id⟩ hplace
  have hfresh : id ∉ s.served.map (·.id) := by
    have hnodup := (numbers_of_perm s.served hperm).nodup_iff.1 hnumbered.nodup
    have hnot : id ∉ numbers (s.opening.eraseIdx place) s.served := (List.nodup_cons.1 hnodup).1
    exact fun hmem => hnot (List.mem_append_right _ hmem)
  have horigin : ∀ c ∈ s.served, Function.update origin id (some stream) c.id = origin c.id := by
    intro c hc
    have hne : c.id ≠ id := by
      rintro rfl
      exact hfresh (List.mem_map.2 ⟨c, hc, rfl⟩)
    rw [Function.update_of_ne hne]
  refine ⟨Function.update origin id (some stream), h.made, ?_, ?_, ?_⟩
  · have hserved : s.served.map (fun c => (c.connection, Function.update origin id (some stream) c.id)) =
        s.served.map fun c => (c.connection, origin c.id) :=
      List.map_congr_left fun c hc => by rw [horigin c hc]
    refine h.calls.trans ((hperm.map _).append_right _ |>.trans ?_)
    rw [List.map_append, hserved, List.map_cons, List.map_singleton, Function.update_self,
      ← List.append_assoc]
    exact (List.perm_append_singleton _ _).symm
  · intro c hc
    rcases List.mem_append.1 hc with hc | hc
    · rw [horigin c hc]
      exact h.alone c hc
    · obtain rfl := List.mem_singleton.1 hc
      obtain ⟨hturns, htraffic⟩ := h.idle id hfresh
      obtain ⟨rfl, rfl⟩ := h.made
      refine ⟨stream, Function.update_self id (some stream) origin, ?_, ?_⟩
      · rw [hturns]
        rfl
      · rw [hturns, htraffic]
        rfl
  · intro id' hid
    rw [List.map_append, List.mem_append, not_or] at hid
    exact h.idle id' hid.1

theorem separate_step (hstep : Steps s move t) (hnumbered : Numbered s.next s.opening s.served)
    (h : Separate name handler moves traffic origin s) :
    ∃ origin, Separate name handler (moves ++ [move]) (traffic ++ s.uses move) origin t := by
  cases hstep with
  | call connection path peer stream hconnection hroute =>
    have hturns : ∀ id, turnsOf id (moves ++ [.call connection path peer stream]) = turnsOf id moves :=
      fun id => by rw [turnsOf_concat]; exact List.append_nil _
    refine ⟨origin, h.made, ?_, ?_, ?_⟩
    · have hcall : ([.call connection path peer stream] : List (Move S)).filterMap (·.call?) =
          [(connection, some stream)] := by simp [Move.call?, hroute]
      rw [List.filterMap_append, hcall, List.map_append]
      refine (h.calls.append_right _).trans ?_
      rw [List.append_assoc, List.append_assoc]
      exact List.perm_append_comm.append_left _
    · intro c hc
      obtain ⟨stream, horigin, hrun, htraffic⟩ := h.alone c hc
      exact ⟨stream, horigin, by rw [hturns]; exact hrun, by rw [hturns]; simpa [uses] using htraffic⟩
    · intro id hid
      rw [hturns]
      simpa [uses] using h.idle id hid
  | refuse connection path peer stream status hconnection hroute =>
    exact ⟨origin, h.quiet (fun _ => rfl) (by simp [Move.call?, hroute]) rfl⟩
  | number place connection peer stream hplace =>
    obtain ⟨hbefore, hafter⟩ := perm_place ⟨connection, peer, stream, .numbered s.next⟩ hplace
    refine ⟨origin, Separate.quiet ⟨h.made, ?_, h.alone, h.idle⟩ (fun _ => rfl) rfl rfl⟩
    have hopening := (hbefore.map fun o => (o.connection, some o.stream)).trans
      (hafter.map fun o => (o.connection, some o.stream)).symm
    exact h.calls.trans (hopening.append_right _)
  | enter place connection peer stream id hplace =>
    obtain ⟨hbefore, hafter⟩ := perm_place ⟨connection, peer, stream, .entered id⟩ hplace
    refine ⟨origin, Separate.quiet ⟨h.made, ?_, h.alone, h.idle⟩ (fun _ => rfl) rfl rfl⟩
    have hopening := (hbefore.map fun o => (o.connection, some o.stream)).trans
      (hafter.map fun o => (o.connection, some o.stream)).symm
    exact h.calls.trans (hopening.append_right _)
  | launch place connection peer stream id hplace =>
    obtain ⟨origin', h'⟩ := h.launch hnumbered hplace
    exact ⟨origin', h'.quiet (fun _ => rfl) rfl rfl⟩
  | within id move c d hfind hstep =>
    have hturn : c.conversation.turn (.move move) = some d := hstep
    refine ⟨origin, h.turn hnumbered hfind hturn (fun _ => rfl) rfl ?_⟩
    rw [uses, hfind]
    rfl
  | shift id stream c hfind =>
    obtain ⟨hmem, rfl⟩ := mem_of_find? hfind
    have hturn : c.conversation.turn (.shift stream) = some { c.conversation with stream } := rfl
    -- only one call has that number
    have hupdate : (s.update c.id fun c => { c with conversation.stream := stream }) =
        s.update c.id fun c' => { c' with conversation := { c.conversation with stream } } := by
      refine update_congr fun c' hc' hid => ?_
      rw [hnumbered.eq_of_id hc' hmem hid]
    rw [hupdate]
    exact ⟨origin, h.turn hnumbered hfind hturn (fun _ => rfl) rfl rfl⟩
  | remove id c hfind hresult hgone =>
    have hmark := h.mark (f := fun c => { c with gone := true }) (i := id) fun _ => ⟨rfl, rfl, rfl⟩
    exact ⟨origin, Separate.quiet ⟨hmark.made, hmark.calls, hmark.alone, hmark.idle⟩ (fun _ => rfl) rfl
      rfl⟩
  | complete id | giveUp id =>
    have hmark := h.mark (f := fun c => { c with answered := true }) (i := id) fun _ => ⟨rfl, rfl, rfl⟩
    exact ⟨origin, hmark.quiet (fun _ => rfl) rfl rfl⟩
  | _ => exact ⟨origin, Separate.quiet ⟨h.made, h.calls, h.alone, h.idle⟩ (fun _ => rfl) rfl rfl⟩

theorem separate_run (hrun : (fresh name handler capacity : Server σ S).run moves = some t) :
    ∃ origin, Separate name handler moves ((fresh name handler capacity : Server σ S).traffic moves)
      origin t := by
  refine run_induction (P := fun moves t => ∃ origin, Separate name handler moves
    ((fresh name handler capacity : Server σ S).traffic moves) origin t) ?_
    (fun moves move t u hbefore h hstep => ?_) hrun
  · exact ⟨fun _ => none, ⟨rfl, rfl⟩, by simp [fresh], by simp [fresh], fun id _ => ⟨rfl, rfl⟩⟩
  · obtain ⟨origin, h⟩ := h
    rw [traffic_concat hbefore]
    exact separate_step hstep (numbered_run hbefore) h

/-! ## The loop that accepts connections -/

theorem Steps.loop (hstep : Steps s move t) (hmove : move.isSession = true) :
    t.stage = s.stage ∧ t.acceptFault = s.acceptFault ∧ t.shutdown = s.shutdown ∧
      t.connections = s.connections := by
  cases hstep with
  | within | shift | remove | complete | giveUp => exact ⟨rfl, rfl, rfl, rfl⟩
  | _ => cases hmove

theorem sent_of_receive {x y : Shutdown} {heard : Shutdown.Heard}
    (h : x.receive = some (heard, y)) : y.sent = x.sent ∧ (heard ≠ .noSender → x.sent ≠ 0) := by
  simp only [Shutdown.receive] at h
  split at h
  · cases h
    exact ⟨rfl, fun _ => by omega⟩
  · split at h
    · cases h
      exact ⟨rfl, fun _ => by omega⟩
    · split at h
      · cases h
        exact ⟨rfl, fun hne => absurd rfl hne⟩
      · cases h

/-- What has brought the loop to where it is. -/
structure Looped (moves : List (Move S)) (s : Server σ S) : Prop where
  fault : ∀ fault, s.acceptFault = some fault → .failAccept fault ∈ moves
  request : s.shutdown.sent ≠ 0 → .requestShutdown ∈ moves
  stage : s.stage.accepts = false → .requestShutdown ∈ moves ∨ ∃ fault, .failAccept fault ∈ moves

theorem looped_step (hstep : Steps s move t) (h : Looped moves s) : Looped (moves ++ [move]) t := by
  have hold : Looped (moves ++ [move]) s :=
    ⟨fun fault hfault => List.mem_append_left _ (h.fault fault hfault),
      fun hsent => List.mem_append_left _ (h.request hsent),
      fun hs => (h.stage hs).imp (List.mem_append_left _)
        fun ⟨fault, hfault⟩ => ⟨fault, List.mem_append_left _ hfault⟩⟩
  cases hstep with
  | failAccept fault haccepts =>
    have hmem : .failAccept fault ∈ moves ++ [.failAccept fault] := by simp
    refine ⟨fun fault' hfault => ?_, hold.request, fun _ => .inr ⟨fault, hmem⟩⟩
    cases hfault
    exact hmem
  | requestShutdown shutdown hsend => exact ⟨hold.fault, fun _ => by simp, hold.stage⟩
  | copySender shutdown hcopy =>
    simp only [Shutdown.copySender] at hcopy
    split at hcopy <;> cases hcopy
    exact ⟨hold.fault, hold.request, hold.stage⟩
  | dropSender shutdown hdrop =>
    simp only [Shutdown.dropSender] at hdrop
    split at hdrop <;> cases hdrop
    exact ⟨hold.fault, hold.request, hold.stage⟩
  | goOn shutdown hs hreceive =>
    obtain ⟨hsent, -⟩ := sent_of_receive hreceive
    exact ⟨hold.fault, fun hne => hold.request (hsent ▸ hne), fun hs => by cases hs⟩
  | hear heard shutdown hs hreceive hheard =>
    obtain ⟨hsent, hrequest⟩ := sent_of_receive hreceive
    exact ⟨hold.fault, fun hne => hold.request (hsent ▸ hne), fun _ => .inl (hold.request (hrequest hheard))⟩
  | stop hs hconnections => exact ⟨hold.fault, hold.request, fun _ => hold.stage (by rw [hs]; rfl)⟩
  | _ => exact ⟨hold.fault, hold.request, hold.stage⟩

theorem looped_run (hrun : (fresh name handler capacity : Server σ S).run moves = some t) :
    Looped moves t :=
  run_induction (P := Looped) ⟨by simp [fresh], by simp [fresh], by simp [fresh, Stage.accepts]⟩
    (fun _ _ _ _ _ h hstep => looped_step hstep h) hrun

/-- A peer connects and makes a call, which is opened at a place. -/
def admission (connection : Nat) (peer : Option String) (stream : S) (place : Nat) : List (Move S) :=
  [.connect connection, .call connection Protocol.connectPath peer stream, .number place, .enter place,
    .launch place]

theorem run_admission (s : Server σ S) (haccepts : s.stage.accepts = true) {connection : Nat}
    (hnew : connection ∉ s.connections) (peer : Option String) (stream : S) :
    ∃ t, s.run (admission connection peer stream s.opening.length) = some t ∧
      t.served = s.served ++
        [{ id := s.next, connection, conversation := .start s.name stream s.handler }] := by
  have hroute : route Protocol.connectPath = .ok () := by simp [route]
  simp [admission, run, step, haccepts, hnew, hroute, enter]

/-! ## Independence -/

/-- How the sessions of a server, the loop and a run stand to each other. -/
structure Independent (name : String) (handler : Handler σ) (moves : List (Move S))
    (traffic : List (Nat × Party × Use)) (origin : Nat → Option S) (t : Server σ S) : Prop where
  separate : Separate name handler moves traffic origin t
  /-- A session can do what its own conversation can. -/
  free : ∀ c ∈ t.served, ∀ move, t.step (.within c.id move) =
    (c.conversation.step move).map fun d => t.update c.id fun c => { c with conversation := d }
  /-- No session does anything to the loop. -/
  loop : ∀ move u, t.step move = some u → move.isSession = true →
    u.stage = t.stage ∧ u.acceptFault = t.acceptFault ∧ u.shutdown = t.shutdown ∧
      u.connections = t.connections
  /-- The loop ends for a request or for want of connections to accept, -/
  ends : t.stage.accepts = false → .requestShutdown ∈ moves ∨ ∃ fault, .failAccept fault ∈ moves
  /-- and fails only for the latter. -/
  fails : ∀ why, t.result? = some (.error why) →
    ∃ fault, .failAccept fault ∈ moves ∧ why = .transport .accept (.io fault)
  /-- Until then it serves whoever comes. -/
  admits : t.stage.accepts = true → ∀ connection ∉ t.connections, ∀ peer stream,
    ∃ u, t.run (admission connection peer stream t.opening.length) = some u ∧
      u.served = t.served ++
        [{ id := t.next, connection, conversation := .start name stream handler }]

theorem independent_run (hrun : (fresh name handler capacity : Server σ S).run moves = some t) :
    ∃ origin, Independent name handler moves
      ((fresh name handler capacity : Server σ S).traffic moves) origin t := by
  obtain ⟨origin, hseparate⟩ := separate_run hrun
  have hlooped := looped_run hrun
  refine ⟨origin, hseparate, ?_, ?_, hlooped.stage, ?_, ?_⟩
  · intro c hc move
    rw [step, (numbered_run hrun).find?_eq hc, Option.map_eq_bind]
    rfl
  · intro move u hstep
    exact (Steps.of_step hstep).loop
  · intro why hwhy
    rw [result?] at hwhy
    split at hwhy
    · cases hwhy
    · rename_i fault hs hfault
      cases hwhy
      exact ⟨fault, hlooped.fault fault hfault, rfl⟩
    · cases hwhy
  · intro haccepts connection hnew peer stream
    obtain ⟨rfl, rfl⟩ := hseparate.made
    exact run_admission t haccepts hnew peer stream

/-- **The sessions of a server are independent.** In every run, what concerns one session is a run of that
session alone, over the stream of its call: so two sessions with the same stream and the same turns come
to the same, in the same run or in another, whatever the others do. What they do, and how they end, is no
matter to the loop that accepts connections. -/
theorem sessions_are_independent {capacity' : Nat} {moves' : List (Move S)} {t' : Server σ S}
    (hrun : (fresh name handler capacity : Server σ S).run moves = some t)
    (hrun' : (fresh name handler capacity' : Server σ S).run moves' = some t') :
    ∃ origin origin',
      Independent name handler moves ((fresh name handler capacity : Server σ S).traffic moves) origin t ∧
      Independent name handler moves' ((fresh name handler capacity' : Server σ S).traffic moves')
        origin' t' ∧
      ∀ c ∈ t.served, ∀ c' ∈ t'.served, origin c.id = origin' c'.id →
        turnsOf c.id moves = turnsOf c'.id moves' → c.conversation = c'.conversation ∧
          trafficOf c.id ((fresh name handler capacity : Server σ S).traffic moves) =
            trafficOf c'.id ((fresh name handler capacity' : Server σ S).traffic moves') := by
  obtain ⟨origin, h⟩ := independent_run hrun
  obtain ⟨origin', h'⟩ := independent_run hrun'
  refine ⟨origin, origin', h, h', fun c hc c' hc' horigin hturns => ?_⟩
  obtain ⟨stream, hstream, hrun, htraffic⟩ := h.separate.alone c hc
  obtain ⟨stream', hstream', hrun', htraffic'⟩ := h'.separate.alone c' hc'
  obtain rfl : stream = stream' := by
    rw [horigin, hstream'] at hstream
    exact (Option.some.inj hstream).symm
  rw [hturns] at hrun htraffic
  exact ⟨Option.some.inj (hrun.symm.trans hrun'), htraffic.trans htraffic'.symm⟩

/-- The moves in which a session registers and gives the first message to its handler. -/
def firstMessage (id : Nat) : List (Move Loopback.Rigged) :=
  [.register, .beginReceive, .receive, .handOver, .takeResult].map (.within id)

/-- The moves in which an echo session then replies. -/
def firstReply (id : Nat) : List (Move Loopback.Rigged) := [.work, .work, .advance 0].map (.within id)

/-- A peer that shows a sign of life, and one that breaks off. -/
def lively : Loopback.Rigged where
  loopback := { inbound := [.ok (.ofKind .keepalive [])] }

def broken : Loopback.Rigged where
  loopback := { inbound := [.error .sendClosed] }

/-- The lively peer is alone, or the other peer's session fails beside its own. -/
def quietDay : List (Move Loopback.Rigged) := admission 0 none lively 0 ++ firstMessage 1 ++ firstReply 1

def busyDay : List (Move Loopback.Rigged) :=
  admission 0 none broken 0 ++ admission 1 none lively 0 ++ firstMessage 2 ++ firstMessage 1 ++
    [.within 1 .close, .remove 1, .complete 1] ++ firstReply 2

theorem sessions_are_independent_besideFailure : ∃ t t' c c',
    (fresh "mycc" echo 16).run quietDay = some t ∧ (fresh "mycc" echo 16).run busyDay = some t' ∧
      (t'.find? 1).bind (·.conversation.session.result?) = some (.transport .receive .sendClosed) ∧
      t.find? 1 = some c ∧ t'.find? 2 = some c' ∧ c.conversation = c'.conversation ∧
      trafficOf 1 ((fresh "mycc" echo 16).traffic quietDay) =
        trafficOf 2 ((fresh "mycc" echo 16).traffic busyDay) := by
  obtain ⟨t, c, hrun, hfind, hconnection⟩ : ∃ t c, (fresh "mycc" echo 16).run quietDay = some t ∧
      t.find? 1 = some c ∧ c.connection = 0 :=
    ⟨_, _, rfl, rfl, rfl⟩
  obtain ⟨t', c', hrun', hfind', hconnection', hfailed⟩ : ∃ t' c',
      (fresh "mycc" echo 16).run busyDay = some t' ∧ t'.find? 2 = some c' ∧ c'.connection = 1 ∧
        (t'.find? 1).bind (·.conversation.session.result?) = some (.transport .receive .sendClosed) :=
    ⟨_, _, rfl, rfl, rfl, rfl⟩
  obtain ⟨hmem, hid⟩ := mem_of_find? hfind
  obtain ⟨hmem', hid'⟩ := mem_of_find? hfind'
  obtain ⟨origin, origin', h, h', hsame⟩ := sessions_are_independent hrun hrun'
  have hcalls : quietDay.filterMap (·.call?) = [(0, some lively)] := rfl
  have hcalls' : busyDay.filterMap (·.call?) = [(0, some broken), (1, some lively)] := rfl
  have horigin : origin c.id = some lively :=
    h.separate.origin_eq hmem (by simp [hcalls, hconnection])
  have horigin' : origin' c'.id = some lively :=
    h'.separate.origin_eq hmem' (by simp [hcalls', hconnection'])
  have hturns : turnsOf c.id quietDay = turnsOf c'.id busyDay := by
    rw [hid, hid']
    rfl
  obtain ⟨hconversation, htraffic⟩ := hsame c hmem c' hmem' (horigin.trans horigin'.symm) hturns
  rw [hid, hid'] at htraffic
  exact ⟨t, t', c, c', hrun, hrun', hfailed, hfind, hfind', hconversation, htraffic⟩

end Chaincode.Server
