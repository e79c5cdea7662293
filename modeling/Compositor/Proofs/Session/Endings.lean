import Compositor.Proofs.Session.Acknowledgements
import Compositor.Proofs.Session.Posting
import Compositor.Proofs.Session.Screening

/-
  Destructor requests.

  Three parties may end the object that a destructor request is for: its handler, which may destroy it or post
  an event that is a destructor as well; the closing of the session; and the dispatcher, once the handler has
  returned.  It ends exactly once.  `Ending` follows the object through the actions of the request: it is live
  in its own generation and nothing has been announced, or it is gone and its deletion has been announced once,
  or the connection has stopped.  Every action leads from one of these to one of these (`Ending.outcome`), as
  the id is not handed out again in the meantime: server ids never are, and client ids only by another request.
  What the dispatcher does at the end leaves the last two (`Ending.endOfLife`).
-/

namespace Compositor.Sessions

open Compositor.Wire (Arg Message ObjectId Outbox)
open Compositor.Objects (Handle Object Table)
open Compositor.Protocol

/-! ## The actions of a handler -/

/-- An action that handling a request goes on with: any but the insertion of what the request creates, which
comes first, and handing over the queued bytes, which no handler does. -/
def Action.Continues {K : Kit} : Action K → Prop
  | .insertCreated .. => False
  | .drain => False
  | _ => True

section
variable {app : Application}

theorem Connection.continues_of_mem_postActions {c : Connection app.toKit} {id : ObjectId} {opcode : UInt16}
    {args : List Arg} : ∀ a ∈ c.postActions app id opcode args, a.Continues := by
  intro a ha
  unfold postActions at ha
  split at ha
  · cases ha
  · rcases List.mem_cons.1 ha with rfl | ha
    · trivial
    · split at ha
      · rw [List.mem_singleton.1 ha]
        trivial
      · cases ha

theorem Step.continues_of_mem_actions {self : ObjectId} {s : Step app.toKit} {c : Connection app.toKit} :
    ∀ a ∈ s.actions app self c, a.Continues := by
  intro a ha
  cases s with
  | post object opcode args => exact Connection.continues_of_mem_postActions a ha
  | bind object implementation =>
    change a ∈ (if object = self then [] else [Action.bind object implementation]) at ha
    split at ha
    · cases ha
    · rw [List.mem_singleton.1 ha]
      trivial
  | create interface version =>
    obtain rfl := List.mem_singleton.1 ha
    trivial
  | destroy object =>
    obtain rfl := List.mem_singleton.1 ha
    trivial
  | serial =>
    obtain rfl := List.mem_singleton.1 ha
    trivial
  | close =>
    obtain rfl := List.mem_singleton.1 ha
    trivial
  | record world =>
    obtain rfl := List.mem_singleton.1 ha
    trivial
  | _ => cases ha

theorem Program.continues_of_mem_actions {self : ObjectId} {α : Type} (p : Program app.toKit α) :
    ∀ {c : Connection app.toKit}, ∀ a ∈ p.actions app self c, a.Continues := by
  induction p with
  | done result =>
    intro c a ha
    cases ha
  | step s next ih =>
    intro c a ha
    rcases List.mem_append.1 ha with ha | ha
    · exact Step.continues_of_mem_actions a ha
    · exact ih _ a ha

namespace Connection

variable {c : Connection app.toKit} {m : Message} {target : Object (Implementation app.Handler)}
  {method : Method}

theorem continues_of_mem_invokeActions {generation : Nat} {i : Implementation app.Handler} {r : Request} :
    ∀ a ∈ c.invokeActions app generation i r, a.Continues := by
  intro a ha
  rcases List.mem_append.1 ha with ha | ha
  · exact Program.continues_of_mem_actions _ a ha
  · rcases List.mem_cons.1 ha with rfl | ha
    · trivial
    · split at ha
      · cases ha
      · exact continues_of_mem_postActions a ha

theorem continues_of_mem_endOfLifeActions {id : ObjectId} {generation : Nat} :
    ∀ a ∈ c.endOfLifeActions app id generation method, a.Continues := by
  intro a ha
  unfold endOfLifeActions at ha
  split at ha
  · rw [List.mem_singleton.1 ha]
    trivial
  · cases ha

/-- Where the object is gone, nothing is left to do. -/
theorem endOfLifeActions_of_dead {id : ObjectId} {generation : Nat} (hget : c.table.objects.get? id = none) :
    c.endOfLifeActions app id generation method = [] := by
  refine if_neg fun hdone => ?_
  have hcurrent := hdone.2.2
  unfold Table.isCurrent at hcurrent
  rw [hget] at hcurrent
  cases hcurrent

/-- A valid destructor inserts what it creates, goes on, and at last the dispatcher looks after its object. -/
theorem dispatchActions_of_destructor (hopen : c.isOpen) (h : c.Valid m target method)
    (hdestructor : method.destructor = true) : ∃ before : List (Action app.toKit),
      (∀ a ∈ before, a.Continues) ∧
        let insertion : Action app.toKit := .insertCreated target.version method.signature.params m.args
        c.dispatchActions app m = insertion :: (before ++
          (replay app before (insertion.apply app c)).endOfLifeActions app m.object target.generation
            method) := by
  obtain ⟨c', haccept, c₁, htake, -⟩ := exists_prepared h
  have hinsert := apply_insertCreated app hopen haccept
  have htaken : Action.apply app (.take m.object) c' = c₁ := congrArg Prod.snd htake
  unfold dispatchActions
  rw [haccept]
  dsimp only at hinsert ⊢
  rw [htake, hinsert]
  cases target.implementation with
  | none =>
    refine ⟨[.take m.object], fun a ha => ?_, ?_⟩
    · rw [List.mem_singleton.1 ha]
      trivial
    · rw [replay, htaken, replay]
      dsimp only
      rw [if_pos hdestructor]
      rfl
  | some i =>
    refine ⟨.take m.object :: c₁.invokeActions app target.generation i
      ⟨m.object, m.opcode, target.version, target.interface, m.args⟩, fun a ha => ?_, ?_⟩
    · rcases List.mem_cons.1 ha with rfl | ha
      · trivial
      · exact continues_of_mem_invokeActions a ha
    · rw [replay, htaken, replay_invoke]
      rfl

end Connection

/-! ## What is queued -/

/-- Only a destruction announces anything. -/
theorem Action.Outcome.count_announced {a : Action app.toKit} {c c' : Connection app.toKit}
    {hs : List Happening} (h : a.Outcome app c c' hs) (ha : ∀ id, a ≠ .destroy id) (x : ObjectId) :
    hs.count (.announced x) = 0 := by
  rw [List.count_eq_zero]
  intro hmem
  cases h with
  | queued _ => cases List.mem_singleton.1 hmem
  | destroyed => exact ha _ rfl
  | created _ _ _ => cases List.mem_singleton.1 hmem
  | inserted _ _ _ => cases List.mem_singleton.1 hmem
  | drained => cases List.mem_singleton.1 hmem
  | _ => cases hmem

/-- A destruction queues its announcement, and nothing else. -/
theorem Connection.bytes_destroy {c : Connection app.toKit} (hroom : 12 ≤ c.outbound.limit) (id : ObjectId) :
    (c.destroy app id).2.outbound.bytes =
      c.outbound.bytes ++ (Action.happenings app (.destroy id) c).flatMap Happening.frame := by
  unfold Action.happenings
  dsimp only
  rcases Connection.destroy_cases app hroom id with ⟨e, heq⟩ | ⟨o, table, -, -, -, heq⟩
  · rw [heq]
    exact (List.append_nil _).symm
  · rw [heq]
    dsimp only
    unfold Connection.announced
    split
    · rw [List.flatMap_singleton]
      exact Outbox.bytes_append _ _
    · exact (List.append_nil _).symm

/-- Everything that happens is queued in its order, as long as the queue is not handed over. -/
theorem Action.Outcome.bytes_eq {a : Action app.toKit} {c c' : Connection app.toKit} {hs : List Happening}
    (h : a.Outcome app c c' hs) (ha : a ≠ .drain) (hroom : 12 ≤ c.outbound.limit) :
    c'.outbound.bytes = c.outbound.bytes ++ hs.flatMap Happening.frame := by
  cases h with
  | queued _ =>
    rw [List.flatMap_singleton]
    exact Outbox.bytes_append _ _
  | destroyed => exact Connection.bytes_destroy hroom _
  | closed =>
    unfold Connection.close
    split
    · exact (List.append_nil _).symm
    · exact (List.append_nil _).symm
  | drained => exact absurd rfl ha
  | _ => exact (List.append_nil _).symm

theorem bytes_replay {as : List (Action app.toKit)} (has : ∀ a ∈ as, a ≠ .drain) :
    ∀ {c : Connection app.toKit}, 12 ≤ c.outbound.limit → (replay app as c).outbound.bytes =
      c.outbound.bytes ++ (happenings app as c).flatMap Happening.frame := by
  induction as with
  | nil =>
    intro c _
    exact (List.append_nil _).symm
  | cons a as ih =>
    intro c hroom
    have hroom' : 12 ≤ (a.apply app c).outbound.limit := by
      rw [(a.keeps c).limit_eq]
      exact hroom
    rw [replay, ih (fun b hb => has b (List.mem_cons_of_mem a hb)) hroom',
      (a.outcome c).bytes_eq (has a (List.mem_cons_self ..)) hroom, happenings, List.flatMap_append,
      List.append_assoc]

/-! ## The object of the request -/

/-- How often the deletion of an id is announced. -/
def farewells (x : ObjectId) : Nat := if x.side = .client then 1 else 0

/-- What has come of the object that was at the id `x` in a given generation, when its deletion has been
announced `n` times. -/
inductive Fate {K : Kit} (x : ObjectId) (generation n : Nat) (c : Connection K) : Prop where
  /-- It is there. -/
  | live {o : Object (Implementation K.Handler)} : c.isOpen → c.table.objects.get? x = some o →
      o.generation = generation → n = 0 → Fate x generation n c
  /-- It is gone, and the client has been told if it has to release the id. -/
  | gone : c.isOpen → c.table.objects.get? x = none → n = farewells x → Fate x generation n c
  /-- The connection has stopped, and everything is gone. -/
  | stopped : c.isOpen = false → c.table.objects.get? x = none → Fate x generation n c

/-- What is kept while a request for the object at the id `x` is handled. -/
structure Ending {K : Kit} (x : ObjectId) (generation n : Nat) (c : Connection K) : Prop where
  room : 12 ≤ c.outbound.limit
  /-- The id is not handed out again. -/
  taken : x.side = .server → x.toNat < c.table.nextServer
  fate : Fate x generation n c

namespace Ending

variable {x : ObjectId} {generation n : Nat} {c c' : Connection app.toKit}

/-- What neither stops the connection nor touches the object. -/
theorem step (h : Ending x generation n c) (hlimit : c'.outbound.limit = c.outbound.limit)
    (hserver : c.table.nextServer ≤ c'.table.nextServer) (hopen : c'.isOpen = c.isOpen)
    (hobject : (c'.table.objects.get? x).map (·.generation) = (c.table.objects.get? x).map (·.generation)) :
    Ending x generation n c' := by
  refine ⟨hlimit ▸ h.room, fun hside => Nat.lt_of_lt_of_le (h.taken hside) hserver, ?_⟩
  cases h.fate with
  | live hlive hget hgeneration hn =>
    rw [hget] at hobject
    obtain ⟨o', hget', hsame⟩ := Option.map_eq_some_iff.1 hobject
    exact .live (hopen.trans hlive) hget' (hsame.trans hgeneration) hn
  | gone hlive hget hn =>
    rw [hget] at hobject
    exact .gone (hopen.trans hlive) (Option.map_eq_none_iff.1 hobject) hn
  | stopped hstopped hget =>
    rw [hget] at hobject
    exact .stopped (hopen.trans hstopped) (Option.map_eq_none_iff.1 hobject)

/-- Installing an implementation or taking it out leaves the object in its generation. -/
theorem modify (h : Ending x generation n c) (id : ObjectId) (i : Option (Implementation app.Handler)) :
    Ending x generation n { c with table := c.table.modify id fun o => { o with implementation := i } } := by
  refine h.step rfl (Nat.le_of_eq (Table.modify_keeps _ _ _).1.symm) rfl ?_
  dsimp only
  rw [Table.get?_modify]
  split
  · rename_i heq
    rw [heq, Option.map_map]
    rfl
  · rfl

/-- Another object is inserted. -/
theorem insert (h : Ending x generation n c) {side : Wire.Side} {id : ObjectId}
    {o : Object (Implementation app.Handler)} {handle : Handle}
    {table : Table (Implementation app.Handler)} (hinsert : c.table.insert side id o = .ok (handle, table))
    (hne : x ≠ id) (hserver : side = .server → c.table.nextServer ≤ id.toNat) :
    Ending x generation n { c with table } := by
  refine h.step rfl ?_ rfl ?_
  · obtain ⟨-, -, rfl⟩ := Table.insert_eq_ok_iff.1 hinsert
    dsimp only
    split
    · rename_i hside
      have hle := hserver hside
      omega
    · exact Nat.le_refl _
  · dsimp only
    rw [Table.objects_insert hinsert, Objects.Directory.get?_put, if_neg hne]

/-- A destruction takes the object away, with the announcement that it needs, or another one. -/
theorem destroy (h : Ending x generation n c) (id : ObjectId) :
    Ending x generation (n + (Action.happenings app (.destroy id) c).count (.announced x))
      (c.destroy app id).2 := by
  unfold Action.happenings
  dsimp only
  rcases Connection.destroy_cases app h.room id with ⟨e, heq⟩ | ⟨o, table, hopen, -, hremove, heq⟩
  · rw [heq]
    exact h
  obtain ⟨htable, hstate, -, hlimit⟩ := Connection.announced_keeps { c with table } id
  obtain ⟨hlive, hobjects, -⟩ := Table.objects_remove hremove
  have hserver : table.nextServer = c.table.nextServer := by
    obtain ⟨-, rfl⟩ := Table.remove_eq_ok_iff.1 hremove
    rfl
  rw [heq]
  dsimp only
  by_cases hid : x = id
  · subst hid
    refine ⟨?_, fun hside => ?_, .gone ?_ ?_ ?_⟩
    · exact hlimit ▸ h.room
    · dsimp only
      rw [htable]
      exact hserver ▸ h.taken hside
    · rw [isOpen_iff] at hopen ⊢
      exact hstate.trans hopen
    · dsimp only
      rw [htable]
      dsimp only
      rw [hobjects, Objects.Directory.get?_erase, if_pos rfl]
    · -- nothing had been announced, since the object was there
      cases h.fate with
      | live _ _ _ hn =>
        rw [hn, Nat.zero_add]
        unfold farewells
        split
        · exact List.count_singleton_self
        · rfl
      | gone _ hget _ =>
        rw [hget] at hlive
        cases hlive
      | stopped _ hget =>
        rw [hget] at hlive
        cases hlive
  · have hcount : (if id.side = .client then [Happening.announced id] else []).count (.announced x) = 0 := by
      rw [List.count_eq_zero]
      intro hmem
      split at hmem
      · injection List.mem_singleton.1 hmem with heq
        exact hid heq
      · cases hmem
    rw [hcount, Nat.add_zero]
    refine h.step hlimit ?_ ?_ ?_
    · dsimp only
      rw [htable]
      exact Nat.le_of_eq hserver.symm
    · unfold Connection.isOpen
      exact congrArg (· == .open) hstate
    · dsimp only
      rw [htable]
      dsimp only
      rw [hobjects, Objects.Directory.get?_erase, if_neg hid]

/-- Closing leaves nothing. -/
theorem close (h : Ending x generation n c) : Ending x generation n (c.close app) := by
  have hstop := Connection.isOpen_close app c
  unfold Connection.close at hstop ⊢
  split
  · rename_i hopen
    rw [if_pos hopen] at hstop
    exact ⟨h.room, h.taken, .stopped hstop rfl⟩
  · exact h

/-- However an action of a handler turns out, it leads on; and so does the insertion of what the request
creates, for then the object is still there. -/
theorem outcome (h : Ending x generation n c) {a : Action app.toKit} {hs : List Happening}
    (houtcome : a.Outcome app c c' hs) (hdrain : a ≠ .drain) (ha : a.Continues ∨ c.table.contains x) :
    Ending x generation (n + hs.count (.announced x)) c' := by
  have hcount : (∀ id, a ≠ .destroy id) → n + hs.count (.announced x) = n := fun hquiet => by
    rw [houtcome.count_announced hquiet, Nat.add_zero]
  cases houtcome with
  | aside => exact h.step rfl (Nat.le_refl _) rfl rfl
  | queued _ =>
    rw [hcount nofun]
    exact h.step rfl (Nat.le_refl _) rfl rfl
  | destroyed => exact h.destroy _
  | created _ _ hinsert =>
    have hle := Table.nextServer_le_of_insert hinsert
    have hside := (Wire.Side.contains_iff_side .server _).1 (Table.slot_of_insert hinsert).1
    rw [hcount nofun]
    refine h.insert hinsert ?_ fun _ => hle
    rintro rfl
    have hlt := h.taken hside
    omega
  | inserted _ _ hinsert =>
    rw [hcount nofun]
    refine h.insert hinsert ?_ nofun
    rintro rfl
    have hlive : c.table.contains x := ha.resolve_left id
    rw [Table.contains_eq_false_iff.2 (Table.get?_of_insert hinsert)] at hlive
    cases hlive
  | bound _ _ => exact h.modify _ _
  | taken _ => exact h.modify _ _
  | returned _ _ => exact h.modify _ _
  | withdrawn => exact h.step rfl (Nat.le_refl _) rfl rfl
  | closed => exact h.close
  | drained => exact absurd rfl hdrain
  | fdsDrained => exact h.step rfl (Nat.le_refl _) rfl rfl

/-- So do all actions of a handler together. -/
theorem replay {as : List (Action app.toKit)} (has : ∀ a ∈ as, a.Continues) :
    ∀ {n : Nat} {c : Connection app.toKit}, Ending x generation n c →
      Ending x generation (n + (happenings app as c).count (.announced x)) (replay app as c) := by
  induction as with
  | nil =>
    intro n c h
    exact h
  | cons a as ih =>
    intro n c h
    have hfirst := has a (List.mem_cons_self ..)
    have hdrain : a ≠ .drain := by
      rintro rfl
      exact hfirst
    rw [happenings, List.count_append, ← Nat.add_assoc]
    exact ih (fun b hb => has b (List.mem_cons_of_mem a hb)) (h.outcome (a.outcome c) hdrain (.inl hfirst))

/-- The dispatcher destroys the object if it is still there, and then it is gone. -/
theorem endOfLife (h : Ending x generation n c) {method : Method} (hdestructor : method.destructor = true)
    (hid : x ≠ .display) :
    let as := c.endOfLifeActions app x generation method
    Ending x generation (n + (happenings app as c).count (.announced x)) (Sessions.replay app as c) ∧
      (Sessions.replay app as c).table.contains x = false := by
  intro as
  have has : ∀ a ∈ as, a.Continues := Connection.continues_of_mem_endOfLifeActions
  refine ⟨h.replay has, ?_⟩
  cases h.fate with
  | live hopen hget hgeneration _ =>
    have hcurrent : c.table.isCurrent x generation := by
      unfold Table.isCurrent
      rw [hget, ← hgeneration]
      exact beq_self_eq_true _
    have heq : as = [.destroy x] := if_pos ⟨hdestructor, hopen, hcurrent⟩
    rw [heq]
    exact Connection.contains_destroy hopen (Table.get_eq_ok_iff_get?.2 hget) hid
  | gone _ hget _ =>
    have heq : as = [] := Connection.endOfLifeActions_of_dead hget
    rw [heq]
    exact Table.contains_eq_false_iff.2 hget
  | stopped _ hget =>
    have heq : as = [] := Connection.endOfLifeActions_of_dead hget
    rw [heq]
    exact Table.contains_eq_false_iff.2 hget

end Ending

/-! ## The whole request -/

namespace Connection

/-- A destructor request has ended its object, once. -/
structure EndsOnce (app : Application) (c : Connection app.toKit) (m : Message) : Prop where
  /-- The object is gone. -/
  gone : (c.dispatch app m).2.table.contains m.object = false
  /-- Unless the session has stopped, a destruction has announced that once if the id is the client's, and not
  at all if it is the server's. -/
  announced : (c.dispatch app m).2.isOpen →
    (happenings app (c.dispatchActions app m) c).count (.announced m.object) = farewells m.object
  /-- What has happened is what was queued. -/
  queued : (c.dispatch app m).2.outbound.bytes =
    c.outbound.bytes ++ (happenings app (c.dispatchActions app m) c).flatMap Happening.frame

variable {c : Connection app.toKit} {m : Message} {target : Object (Implementation app.Handler)}
  {method : Method} {capacity : Nat}

/-- A request that is not refused is valid. -/
theorem exists_valid_of_dispatch (h : (c.dispatch app m).1 = .ok ()) :
    ∃ target method, c.Valid m target method := by
  rcases c.valid_or_firstFault m with hvalid | ⟨v, hfault⟩
  · exact hvalid
  · obtain ⟨table, hdispatch⟩ : ∃ table, c.dispatch app m = (.error v, { c with table }) :=
      dispatch_of_firstFault hfault
    rw [hdispatch] at h
    cases h

theorem endsOnce_of_valid (hc : Accounted capacity c) (hopen : c.isOpen) (h : c.Valid m target method)
    (hdestructor : method.destructor = true) (hid : m.object ≠ .display) : c.EndsOnce app m := by
  have hlive := Table.get_eq_ok_iff_get?.1 h.live
  have hstart : Ending m.object target.generation 0 c := by
    refine ⟨hc.room, fun hside => ?_, .live hopen hlive rfl rfl⟩
    refine hc.consistent.server_lt m.object hside ?_
    rw [Table.slot_eq_live_iff.2 hlive]
    exact nofun
  have hcontains : c.table.contains m.object := Option.isSome_iff_exists.2 ⟨target, hlive⟩
  have hreplay := replay_dispatch app hopen m
  obtain ⟨before, hbefore, hactions⟩ := dispatchActions_of_destructor hopen h hdestructor
  dsimp only at hactions
  generalize hinsertion : Action.insertCreated target.version method.signature.params m.args = insertion
    at hactions
  have hdrain : insertion ≠ .drain := by
    rintro rfl
    cases hinsertion
  have hquiet : ∀ id, insertion ≠ .destroy id := by
    rintro id rfl
    cases hinsertion
  -- from the insertion through the handler to the end
  have hfirst := hstart.outcome (insertion.outcome c) hdrain (.inr hcontains)
  rw [(insertion.outcome c).count_announced hquiet] at hfirst
  obtain ⟨hend, hgone⟩ := (hfirst.replay hbefore).endOfLife hdestructor hid
  rw [hactions] at hreplay
  rw [← replay_append] at hend hgone
  have hlast : replay app (before ++ (replay app before (insertion.apply app c)).endOfLifeActions app m.object
      target.generation method) (insertion.apply app c) = (c.dispatch app m).2 := hreplay
  rw [hlast] at hend hgone
  refine ⟨hgone, fun hopen' => ?_, ?_⟩
  · rw [hactions, happenings, List.count_append, (insertion.outcome c).count_announced hquiet,
      happenings_append, List.count_append, ← Nat.add_assoc]
    cases hend.fate with
    | live _ hget _ _ =>
      rw [Table.contains_eq_false_iff, hget] at hgone
      cases hgone
    | gone _ _ hn => exact hn
    | stopped hstopped _ =>
      rw [hstopped] at hopen'
      cases hopen'
  · rw [← replay_dispatch app hopen m]
    refine bytes_replay (fun a ha => ?_) hc.room
    rw [hactions] at ha
    rcases List.mem_cons.1 ha with rfl | ha
    · exact hdrain
    · rintro rfl
      rcases List.mem_append.1 ha with ha | ha
      · exact hbefore _ ha
      · exact continues_of_mem_endOfLifeActions _ ha

end Connection

/-- Whatever a session has been through, and whatever it has handled of the input that it holds: a destructor
request ends its object exactly once, whatever the handler does, in a session whose messages have room for a
deletion. -/
theorem endsOnce_of_new {client : Nat} {registry : Registry} {globals : Globals app.Binder} {limits : Limits}
    {world : app.World} {s : Session app.toKit}
    (hnew : Session.new client registry globals limits world = .ok s) (hroom : 12 ≤ limits.maxMessageSize)
    (ops : List (Operation app.toKit)) {inbound : List UInt8} {fds : List Wire.Descriptor}
    {t : Session app.toKit} (hhandled : Handled app { s.performAll app ops with inbound, fds } t)
    (hopen : t.connection.isOpen) {m : Message} (haccepts : (t.connection.dispatch app m).1 = .ok ())
    {o : Object (Implementation app.Handler)} {method : Method}
    (hlive : t.connection.table.get m.object = .ok o)
    (hmethod : o.interface.method? .request m.opcode = some method) (hdestructor : method.destructor = true)
    (hid : m.object ≠ .display) : t.connection.EndsOnce app m := by
  have haccounted : Accounted limits.staleIdCapacity t.connection :=
    hhandled.preserves Accounted.apply (Session.performAll_preserves Accounted.apply ops (.new hnew hroom))
  obtain ⟨o', method', hvalid⟩ := Connection.exists_valid_of_dispatch haccepts
  have htarget := hvalid.live
  rw [hlive] at htarget
  injection htarget with htarget
  subst htarget
  have hsame := hvalid.method_eq
  rw [hmethod] at hsame
  injection hsame with hsame
  subst hsame
  exact Connection.endsOnce_of_valid haccounted hopen hvalid hdestructor hid

end

/-! ### A handler that destroys its own object -/

/-- Something that a client can release. -/
def lamp : Interface where
  name := "lamp"
  version := 1
  requests := [{ name := "release", destructor := true }]

/-- An application with lamps, whose handlers destroy their objects themselves. -/
def Application.leaving : Application where
  Handler := Unit
  Binder := Unit
  World := Unit
  request _ r := .step (.destroy r.object) fun _ => .done ((), .ok ())
  destroyed _ _ world := world
  bind _ _ _ := pure ()

/-- A session of that application as it is opened, with the default limits. -/
def Session.leaving : Session Application.leaving.toKit where
  limits := {}
  connection :=
    { client := 0
      registry := ⟨Core.interfaces ++ [lamp]⟩
      globals := ⟨[⟨1, "lamp", 1, ()⟩], 1⟩
      table :=
        { objects := [(.display, ⟨Core.display, 1, 1, some .display⟩)]
          capacity := 1024
          nextGeneration := 2 }
      outbound := Outbox.withLimit 4096
      world := () }

def lampId : ObjectId := ⟨14, by decide⟩

/-- The client binds a lamp. -/
def lampRun : List (Operation Application.leaving.toKit) :=
  [.dispatch ⟨.display, Core.getRegistryOpcode, [.newId ⟨15, by decide⟩]⟩,
    .dispatch ⟨⟨15, by decide⟩, Core.bindOpcode, [.uint 1, .genericNewId "lamp" 1 lampId]⟩]

/-- Next, the client releases it. -/
theorem endsOnce_of_new_sample :
    let s := Session.leaving.performAll .leaving lampRun
    Session.new 0 ⟨Core.interfaces ++ [lamp]⟩ ⟨[⟨1, "lamp", 1, ()⟩], 1⟩ {} () = .ok Session.leaving ∧
      s.connection.table.contains lampId ∧ (s.connection.dispatch .leaving ⟨lampId, 0, []⟩).1 = .ok () ∧
        (s.connection.dispatch .leaving ⟨lampId, 0, []⟩).2.isOpen ∧
          s.connection.EndsOnce .leaving ⟨lampId, 0, []⟩ := by
  intro s
  have hnew : Session.new 0 ⟨Core.interfaces ++ [lamp]⟩ ⟨[⟨1, "lamp", 1, ()⟩], 1⟩ {} () =
      .ok Session.leaving := rfl
  have haccepts : (s.connection.dispatch .leaving ⟨lampId, 0, []⟩).1 = .ok () := rfl
  have hhandled : Handled .leaving { Session.leaving.performAll .leaving lampRun with inbound := [], fds := [] }
      s := .refl s
  exact ⟨hnew, rfl, haccepts, rfl, endsOnce_of_new hnew (by decide) lampRun hhandled rfl haccepts rfl rfl rfl
    (by decide)⟩

end Compositor.Sessions
