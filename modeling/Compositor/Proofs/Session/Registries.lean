import Compositor.Proofs.Session.Granting
import Mathlib.Tactic.ByContra

/-
  Registries in step with the globals.

  The client of a registry knows the globals from the events of that registry alone.  The display announces all
  globals to a registry that it grants, and a withdrawal reaches every live registry; so as long as these are
  the only events of registries, what the client has heard is what there is.

  `Follows` says this of one handle between two requests.  A request preserves it (`Follows.dispatch`), since it
  grants the registry, or leaves registries and globals alone; so do operations (`Follows.perform`) and runs
  (`Follows.performAll`).  What an application must not do is stated for every request that its handlers see,
  and for everything that the owner of the session posts (`Session.Spares`).
-/

namespace Compositor.Sessions

open Compositor.Wire (Arg Message ObjectId)
open Compositor.Objects (Handle Object Table)
open Compositor.Protocol

/-! ## One request -/

/-- The display and its registries are as the core definitions have them. -/
structure HasCore (registry : Registry) : Prop where
  display : registry.get? Core.displayName = some Core.display
  registry : registry.get? Core.registryName = some Core.registry

/-- What holds between requests: as soon as a registry is granted under a handle, its client is informed of the
globals that there are. -/
structure Follows {K : Kit} (registry : Registry) (limit : Nat) (h : Handle) (granted : Prop)
    (ms : List Message) (c : Connection K) : Prop where
  provisioned : Provisioned registry limit c
  attended : Attended none c
  presided : Presided c
  informed : granted → .display ≠ h.id ∧ Informed h c.globals.offers ms c

section
variable {app : Application} {registry : Registry} {limit : Nat} {h : Handle} {granted : Prop}
  {ms : List Message} {c : Connection app.toKit} {m : Message} {a : Connection.Accepted app.toKit}

/-- What the display does with a request is what its script does. -/
theorem actions_respond_display (r : Request) (owner : ObjectId) (c : Connection app.toKit) :
    (app.respond .display r).actions app owner c =
      (displayRequest r : Script app.toKit Unit).run.actions app owner c := by
  unfold Application.respond
  dsimp only
  rw [Program.actions_andThen]
  exact List.append_nil _

theorem Connection.replay_before (hopen : c.isOpen) (haccept : c.accept m = .ok a) :
    replay app [a.insertion m, .take m.object] c = a.handled m := by
  have hinsert : (a.insertion m).apply app c = a.connection := apply_insertCreated app hopen haccept
  rw [replay, hinsert]
  rfl

namespace Informed

variable {offers offers' : List Offer}

/-- What a client is informed of after some actions decides what it is informed of after all of them. -/
theorem append (as : List (Action app.toKit)) {bs : List (Action app.toKit)}
    (hfirst : Informed h offers ((happenings app as c).foldl (Happening.note h.id) ms)
      (Sessions.replay app as c))
    (hrest : ∀ ms, Informed h offers ms (Sessions.replay app as c) →
      Informed h offers' ((happenings app bs (Sessions.replay app as c)).foldl (Happening.note h.id) ms)
        (Sessions.replay app bs (Sessions.replay app as c))) :
    Informed h offers' ((happenings app (as ++ bs) c).foldl (Happening.note h.id) ms)
      (Sessions.replay app (as ++ bs) c) := by
  rw [happenings_append, List.foldl_append, replay_append]
  exact hrest _ hfirst

/-- A request leaves a client informed that is so. -/
theorem dispatch (hc : Informed h offers ms c) (hne : .display ≠ h.id) (hcore : HasCore registry)
    (hprovisioned : Provisioned registry limit c) (hattended : Attended none c) (hpresided : Presided c)
    (hopen : c.isOpen) (hspares : c.Spares app m) :
    Informed h offers ((happenings app (c.dispatchActions app m) c).foldl (Happening.note h.id) ms)
      (Sessions.replay app (c.dispatchActions app m) c) := by
  have hhandling := c.handling_dispatchActions m
  generalize c.dispatchActions app m = as at hhandling ⊢
  cases hhandling with
  | refused _ => exact hc
  | unanswered _ _ has =>
    refine hc.replay_of_queuesFor (fun _ => hne) ?_
    exact List.forall_mem_cons.2 ⟨trivial, List.forall_mem_cons.2 ⟨trivial, fun b hb => (has b hb).queuesFor⟩⟩
  | @answered a i j as haccept hi hj has =>
    cases hlive : c.table.behind h with
    | none => exact replay_of_gone hc.old hlive _
    | some o =>
      have hbefore := Connection.replay_before hopen haccept
      refine append [a.insertion m, .take m.object] (hc.replay_of_queuesFor (fun _ => hne) ?_) ?_
      · exact List.forall_mem_cons.2 ⟨trivial, List.forall_mem_cons.2 ⟨trivial, nofun⟩⟩
      rw [hbefore]
      intro ms hc
      refine append _ ?_ fun ms hc => hc.replay_of_queuesFor (fun _ => hne) ?_
      · by_cases hm : m.object = .display
        · -- the display posts for the object that it creates, and so not for one that was there before
          rw [Connection.implementation_of_accept hattended hpresided hopen haccept hm] at hi
          injection hi with hi
          obtain ⟨hinterface, -⟩ := Connection.display_of_accept hprovisioned hcore.display hopen haccept hm
          obtain ⟨id, hid, hfree⟩ := Connection.newId_of_accept haccept hinterface
          rw [← hi, actions_respond_display]
          refine hc.replay_of_queuesFor (fun _ heq => ?_) (queuesFor_displayRequest hid _)
          rw [heq, (Table.behind_eq_some_iff.1 hlive).1] at hfree
          cases hfree
        · exact hc.replay_of_spares (hspares hm a i haccept hi)
      · exact List.forall_mem_cons.2 ⟨trivial, fun b hb => (has b hb).queuesFor⟩

/-- The client of a registry that is just inserted knows nothing. -/
theorem inserted (ms : List Message) (hopen : c.isOpen) (haccept : c.accept m = .ok a)
    (hcreated : Connection.createdId? a.method.signature.params m.args = some h.id)
    {table : Table (Implementation app.Handler)}
    (hinsert : c.table.insert .client h.id Connection.freshRegistry = .ok (h, table))
    (hconnection : a.connection = { c with table }) :
    Informed h [] ((happenings app [a.insertion m, .take m.object] c).foldl (Happening.note h.id) ms)
      (a.handled m) := by
  have hhappens : (a.insertion m).happenings app c = [.inserted h.id] := by
    unfold Connection.Accepted.insertion Action.happenings
    dsimp only
    rw [if_pos hopen, (Connection.accept_eq_ok_iff.1 haccept).inserted, hcreated]
    rfl
  have hnote : (happenings app [a.insertion m, .take m.object] c).foldl (Happening.note h.id) ms = [] := by
    rw [happenings, hhappens]
    exact if_pos rfl
  have hbefore : Informed h [] [] a.connection := by
    obtain ⟨hhandle, hnext⟩ := Table.nextGeneration_insert hinsert
    rw [hconnection]
    refine ⟨?_, fun o hlive => ?_⟩
    · rw [hnext, hhandle]
      exact Nat.lt_succ_self _
    · dsimp only at hlive
      rw [Table.behind_insert hinsert, if_pos rfl] at hlive
      injection hlive with hlive
      rw [← hlive]
      exact ⟨rfl, rfl⟩
  rw [hnote]
  exact hbefore.apply (a := .take m.object) trivial

/-- The request that a registry is granted by informs its client of all globals. -/
theorem of_grants (hgrants : c.Grants m h) (hcore : HasCore registry)
    (hprovisioned : Provisioned registry limit c) (hattended : Attended none c) (hpresided : Presided c)
    (hopen : c.isOpen) : .display ≠ h.id ∧ Informed h c.globals.offers
      ((happenings app (c.dispatchActions app m) c).foldl (Happening.note h.id) ms)
      (Sessions.replay app (c.dispatchActions app m) c) := by
  have hm : m.object = .display := congrArg Message.object hgrants.request_eq
  have hhandling := c.handling_dispatchActions m
  generalize c.dispatchActions app m = as at hhandling ⊢
  cases hhandling with
  | refused haccept =>
    obtain ⟨a, haccept'⟩ := hgrants.accepted
    rw [haccept] at haccept'
    cases haccept'
  | unanswered haccept hnone _ =>
    rw [Connection.implementation_of_accept hattended hpresided hopen haccept hm] at hnone
    cases hnone
  | @answered a i j as haccept hi hj has =>
    rw [Connection.implementation_of_accept hattended hpresided hopen haccept hm] at hi
    injection hi with hi
    subst hi
    obtain ⟨hinterface, hversion⟩ := Connection.display_of_accept hprovisioned hcore.display hopen haccept hm
    obtain ⟨hcreated, table, hinsert, hconnection⟩ :=
      hgrants.exists_insert hprovisioned hcore.registry haccept hinterface hversion
    have hne : .display ≠ h.id := by
      intro heq
      obtain ⟨o, hlive, -⟩ := hprovisioned.typed.display hopen
      rw [heq, Table.get?_of_insert hinsert] at hlive
      cases hlive
    obtain ⟨hfresh, hglobals, houtbound⟩ :=
      Connection.Accepted.fresh_handled hopen haccept (hm ▸ hne) hinsert hconnection
    have hfits : ∀ g ∈ (a.handled m).globals.entries, g.offer.Fits (a.handled m).outbound.limit := by
      rw [hglobals, houtbound, hprovisioned.limit_eq]
      exact hprovisioned.fits
    have hid : (a.request m).newId 0 = .ok h.id := by
      unfold Connection.Accepted.request
      rw [hgrants.request_eq]
      rfl
    have hother : h.id ≠ m.object := hm ▸ hne.symm
    have hopcode : (a.request m).opcode = Core.getRegistryOpcode := congrArg Message.opcode hgrants.request_eq
    have hactions := hfresh.actions_displayRequest hother hopcode hid hfits
    have hbefore := inserted ms hopen haccept hcreated hinsert hconnection
    have hfirst := Connection.replay_before hopen haccept
    rw [actions_respond_display, hactions]
    refine ⟨hne, append [a.insertion m, .take m.object] (hfirst ▸ hbefore) ?_⟩
    rw [hfirst, ← hglobals]
    intro ms hc
    refine append _ (hc.getRegistry hfresh hfits) fun ms hc => hc.replay_of_queuesFor (fun _ => hne) ?_
    exact List.forall_mem_cons.2 ⟨trivial, fun b hb => (has b hb).queuesFor⟩

end Informed

namespace Follows

/-- It is the same if the registry is granted for a stronger reason. -/
theorem mono (hc : Follows registry limit h granted ms c) {granted' : Prop} (himp : granted' → granted) :
    Follows registry limit h granted' ms c :=
  ⟨hc.provisioned, hc.attended, hc.presided, fun hgranted => hc.informed (himp hgranted)⟩

/-- Plain actions that queue nothing but events of one other object leave the client informed. -/
theorem replay_of_plain (hc : Follows registry limit h granted ms c) {as : List (Action app.toKit)}
    (hplain : ∀ a ∈ as, a.IsPlain none) {id : ObjectId} (hqueues : ∀ a ∈ as, a.QueuesFor id)
    (hid : granted → (c.table.behind h).isSome → id ≠ h.id) :
    Follows registry limit h granted ((happenings app as c).foldl (Happening.note h.id) ms)
      (replay app as c) where
  provisioned := replay_preserves Provisioned.apply as hc.provisioned
  attended := hc.attended.orderly (.of_isPlain hplain)
  presided := by
    have horderly : Orderly app none as c none := .of_isPlain hplain
    exact .orderly horderly hc.attended hc.presided fun _ _ hmem => (hplain _ hmem).elim
  informed := by
    intro hgranted
    obtain ⟨hne, hinformed⟩ := hc.informed hgranted
    rw [globals_replay (fun a ha => Action.ne_withdraw_of_isPlain (hplain a ha)) c]
    exact ⟨hne, hinformed.replay_of_queuesFor (hid hgranted) hqueues⟩

/-- So do reports to the client. -/
theorem replay_of_isReport (hc : Follows registry limit h granted ms c) {as : List (Action app.toKit)}
    (has : ∀ a ∈ as, a.IsReport) :
    Follows registry limit h granted ((happenings app as c).foldl (Happening.note h.id) ms)
      (replay app as c) :=
  hc.replay_of_plain (fun a ha => (has a ha).isPlain) (fun a ha => (has a ha).queuesFor)
    fun hgranted _ => (hc.informed hgranted).1

/-- A request leaves the client informed, or grants its registry. -/
theorem dispatch (hc : Follows registry limit h granted ms c) (hcore : HasCore registry) (hopen : c.isOpen)
    (hspares : c.Spares app m) : Follows registry limit h (granted ∨ c.Grants m h)
      ((happenings app (c.dispatchActions app m) c).foldl (Happening.note h.id) ms)
      (replay app (c.dispatchActions app m) c) where
  provisioned := replay_preserves Provisioned.apply _ hc.provisioned
  attended := hc.attended.orderly (Connection.orderly_dispatchActions app hopen m)
  presided := by
    refine .orderly (Connection.orderly_dispatchActions app hopen m) hc.attended hc.presided ?_
    refine (c.handling_dispatchActions m).restores fun a i haccept hm hi => ?_
    rw [Connection.implementation_of_accept hc.attended hc.presided hopen haccept hm] at hi
    injection hi with hi
    exact hi.symm
  informed := by
    rw [globals_replay (c.handling_dispatchActions m).ne_withdraw c]
    rintro (hgranted | hgrants)
    · obtain ⟨hne, hinformed⟩ := hc.informed hgranted
      exact ⟨hne, hinformed.dispatch hne hcore hc.provisioned hc.attended hc.presided hopen hspares⟩
    · exact Informed.of_grants hgrants hcore hc.provisioned hc.attended hc.presided hopen

/-- A withdrawal leaves the client informed of what is left. -/
theorem removeGlobal (hc : Follows registry limit h granted ms c) (hcore : HasCore registry)
    (name : UInt32) : Follows registry limit h granted
      ((happenings app (c.removeGlobalActions app name) c).foldl (Happening.note h.id) ms)
      (replay app (c.removeGlobalActions app name) c) where
  provisioned := replay_preserves Provisioned.apply _ hc.provisioned
  attended := hc.attended.orderly (Connection.orderly_removeGlobalActions app c name)
  presided := by
    refine .orderly (Connection.orderly_removeGlobalActions app c name) hc.attended hc.presided ?_
    intro generation i hmem
    unfold Connection.removeGlobalActions at hmem
    split at hmem
    · cases hmem
    · split at hmem
      · cases hmem
      · rcases List.mem_cons.1 hmem with heq | hmem
        · cases heq
        · exact (Connection.isPlain_of_mem_withdrawActions app none _ hmem).elim
  informed := by
    intro hgranted
    obtain ⟨hne, hinformed⟩ := hc.informed hgranted
    rw [Connection.replay_removeGlobal]
    exact ⟨hne, hc.provisioned.informed_removeGlobal hcore.registry hinformed name⟩

/-- Handing over the queue is no event. -/
theorem drain (hc : Follows registry limit h granted ms c) :
    Follows registry limit h granted ((happenings app [.drain] c).foldl (Happening.note h.id) ms)
      (replay app [.drain] c) where
  provisioned := hc.provisioned.apply .drain c
  attended := hc.attended.drain (Action.effect .drain c)
  presided := hc.presided.drain (Action.effect .drain c)
  informed hgranted := ⟨(hc.informed hgranted).1, (hc.informed hgranted).2.apply (a := .drain) trivial⟩

theorem drainFds (hc : Follows registry limit h granted ms c) :
    Follows registry limit h granted ((happenings app [.drainFds] c).foldl (Happening.note h.id) ms)
      (replay app [.drainFds] c) where
  provisioned := hc.provisioned.apply .drainFds c
  attended := hc.attended
  presided := hc.presided
  informed hgranted := ⟨(hc.informed hgranted).1, (hc.informed hgranted).2.apply (a := .drainFds) trivial⟩

end Follows

end

/-! ## Operations -/

section
variable (app : Application)

/-- When the input is dispatched, a request reaches the connection. -/
def Session.Dispatches (s : Session app.toKit) (c : Connection app.toKit) (m : Message) : Prop :=
  ∃ t rest, Handled app s t ∧ t.turn = .request m rest ∧ t.connection = c

/-- In an operation a request reaches the connection. -/
inductive Operation.Dispatches (s : Session app.toKit) :
    Operation app.toKit → Connection app.toKit → Message → Prop where
  | feed {bytes : List UInt8} {c : Connection app.toKit} {m : Message} :
      Session.Dispatches app { s with inbound := s.inbound ++ bytes } c m → Dispatches s (.feed bytes) c m
  | feedFds {fds : List Wire.Descriptor} {c : Connection app.toKit} {m : Message} :
      (s.fds ++ fds).length ≤ s.limits.maxQueuedFds →
        Session.Dispatches app { s with fds := s.fds ++ fds } c m → Dispatches s (.feedFds fds) c m
  | dispatch {m : Message} : s.connection.isOpen → Dispatches s (.dispatch m) s.connection m

/-- In an operation the application posts no event of a registry: neither its handlers do so, nor the owner of
the session. -/
structure Operation.Spares (s : Session app.toKit) (op : Operation app.toKit) : Prop where
  handlers : ∀ c m, op.Dispatches app s c m → c.Spares app m
  posts : ∀ h opcode args, op = .postEvent h opcode args →
    ∀ o, s.connection.table.byHandle h = .ok o → o.interface.name ≠ Core.registryName

end

section
variable {app : Application} {registry : Registry} {limit : Nat} {h : Handle} {granted : Prop}
  {ms : List Message}

/-- Where the front of the input is no request, none reaches the connection. -/
theorem Session.not_dispatches {s : Session app.toKit} (hturn : ∀ m rest, s.turn ≠ .request m rest)
    {c : Connection app.toKit} {m : Message} : ¬ s.Dispatches app c m := by
  rintro ⟨t, rest, hhandled, hrequest, -⟩
  cases hhandled with
  | refl => exact hturn m rest hrequest
  | step hfirst _ _ => exact hturn _ _ hfirst

/-- The first request that reaches the connection is the one at the front of the input. -/
theorem Session.Dispatches.cases {s rest : Session app.toKit} {m m' : Message}
    (hturn : s.turn = .request m rest) {c : Connection app.toKit} (hreaches : s.Dispatches app c m') :
    c = s.connection ∧ m' = m ∨ ∃ connection, rest.connection.dispatch app m = (.ok (), connection) ∧
      Session.Dispatches app { rest with connection } c m' := by
  obtain ⟨t, rest', hhandled, hrequest, rfl⟩ := hreaches
  cases hhandled with
  | refl =>
    rw [hturn] at hrequest
    injection hrequest with hm _
    exact .inl ⟨rfl, hm.symm⟩
  | step hfirst hdispatch hrest =>
    rw [hturn] at hfirst
    injection hfirst with hm hrest'
    subst hm hrest'
    exact .inr ⟨_, hdispatch, t, rest', hrest, hrequest, rfl⟩

/-- Requests reach an open connection only. -/
theorem Operation.Dispatches.isOpen {s : Session app.toKit} {op : Operation app.toKit}
    {c : Connection app.toKit} {m : Message} (hreaches : op.Dispatches app s c m) : s.connection.isOpen := by
  by_contra hstopped
  have hnone : ∀ {t : Session app.toKit}, t.Dispatches app c m → t.connection ≠ s.connection := by
    intro t hreaches hsame
    refine Session.not_dispatches ?_ hreaches
    rw [Session.turn_of_not_open (hsame ▸ hstopped)]
    exact nofun
  cases hreaches with
  | feed hreaches => exact hnone hreaches rfl
  | feedFds _ hreaches => exact hnone hreaches rfl
  | dispatch hopen => exact hstopped hopen

/-- What is done on the object behind a handle are reports, or nothing. -/
theorem Operation.isReport_of_mem_handleActions {s : Session app.toKit} {h : Handle} {a : Action app.toKit}
    (ha : a.IsReport) : ∀ b ∈ handleActions app s h [a], b.IsReport := by
  intro b hb
  unfold handleActions at hb
  split at hb
  · cases hb
  · exact List.mem_singleton.1 hb ▸ ha

namespace Follows

/-- Dispatching the input leaves the client informed, or grants its registry. -/
theorem dispatchAll (hcore : HasCore registry) (s : Session app.toKit) :
    ∀ {granted : Prop} {ms : List Message}, Follows registry limit h granted ms s.connection →
      (∀ c m, s.Dispatches app c m → c.Spares app m) →
        Follows registry limit h (granted ∨ ∃ c m, s.Dispatches app c m ∧ c.Grants m h)
          ((happenings app (s.dispatchAllActions app) s.connection).foldl (Happening.note h.id) ms)
          (s.dispatchAll app).2.connection := by
  -- where there is no request, nothing is granted
  have hstops : ∀ {s : Session app.toKit} {granted : Prop} {ms : List Message},
      (∀ m rest, s.turn ≠ .request m rest) → Follows registry limit h granted ms s.connection →
        Follows registry limit h (granted ∨ ∃ c m, s.Dispatches app c m ∧ c.Grants m h)
          ((happenings app (s.dispatchAllActions app) s.connection).foldl (Happening.note h.id) ms)
          s.connection := by
    intro s granted ms hturn hc
    rw [Session.dispatchAllActions_of_not_request app hturn]
    refine hc.mono fun hgranted => hgranted.resolve_right ?_
    rintro ⟨c, m, hreaches, -⟩
    exact Session.not_dispatches hturn hreaches
  apply Session.dispatchAll_induction app (motive := fun s r => ∀ {granted : Prop} {ms : List Message},
    Follows registry limit h granted ms s.connection → (∀ c m, s.Dispatches app c m → c.Spares app m) →
      Follows registry limit h (granted ∨ ∃ c m, s.Dispatches app c m ∧ c.Grants m h)
        ((happenings app (s.dispatchAllActions app) s.connection).foldl (Happening.note h.id) ms)
        r.2.connection)
  · intro s hturn granted ms hc _
    exact hstops (by rw [hturn]; exact nofun) hc
  · intro s v target hturn granted ms hc _
    exact hstops (by rw [hturn]; exact nofun) hc
  · intro s m rest v connection hturn hdispatch granted ms hc hspares
    have hrest := Session.connection_of_turn hturn
    have hopen := Session.isOpen_of_turn hturn
    have hfirst := hc.dispatch hcore hopen (hspares s.connection m ⟨s, rest, .refl s, hturn, rfl⟩)
    rw [Connection.replay_dispatch app hopen, ← hrest, hdispatch] at hfirst
    rw [Session.dispatchAllActions_of_request app hturn, hdispatch, ← hrest]
    dsimp only at hfirst ⊢
    rw [List.append_nil]
    refine hfirst.mono (Or.imp_right ?_)
    rintro ⟨c, m', hreaches, hgrants⟩
    rcases hreaches.cases hturn with ⟨rfl, rfl⟩ | ⟨connection', hhandled, -⟩
    · exact hrest ▸ hgrants
    · rw [hdispatch] at hhandled
      cases hhandled
  · intro s m rest connection hturn hdispatch ih granted ms hc hspares
    have hrest := Session.connection_of_turn hturn
    have hopen := Session.isOpen_of_turn hturn
    have hfirst := hc.dispatch hcore hopen (hspares s.connection m ⟨s, rest, .refl s, hturn, rfl⟩)
    have hreplay := Connection.replay_dispatch app hopen m
    rw [← hrest, hdispatch] at hreplay
    rw [← hrest, hreplay] at hfirst
    have hlater := ih hfirst fun c m' ⟨t, rest', hhandled, hrequest, hconnection⟩ =>
      hspares c m' ⟨t, rest', .step hturn hdispatch hhandled, hrequest, hconnection⟩
    rw [Session.dispatchAllActions_of_request app hturn, hdispatch, ← hrest, happenings_append,
      List.foldl_append, hreplay]
    refine hlater.mono ?_
    rintro (hgranted | ⟨c, m', hreaches, hgrants⟩)
    · exact .inl (.inl hgranted)
    · rcases hreaches.cases hturn with ⟨rfl, rfl⟩ | ⟨connection', hhandled, hreaches⟩
      · exact .inl (.inr (hrest ▸ hgrants))
      · rw [hdispatch] at hhandled
        injection hhandled with _ hhandled
        subst hhandled
        exact .inr ⟨c, m', hreaches, hgrants⟩

/-- So does seeing to what is left. -/
theorem process (hcore : HasCore registry) {s : Session app.toKit} {granted : Prop} {ms : List Message}
    (hc : Follows registry limit h granted ms s.connection)
    (hspares : ∀ c m, s.Dispatches app c m → c.Spares app m) :
    Follows registry limit h (granted ∨ ∃ c m, s.Dispatches app c m ∧ c.Grants m h)
      ((happenings app (s.processActions app) s.connection).foldl (Happening.note h.id) ms)
      (replay app (s.processActions app) s.connection) := by
  have hall := dispatchAll hcore s hc hspares
  unfold Session.processActions
  rw [happenings_append, List.foldl_append, replay_append, Session.replay_dispatchAll]
  refine hall.replay_of_isReport fun a ha => ?_
  split at ha
  · exact Connection.isReport_of_mem_failActions a ha
  · split at ha
    · cases ha
    · split at ha
      · exact Connection.isReport_of_mem_failActions a ha
      · cases ha

/-- An operation leaves the client informed, or grants its registry. -/
theorem perform (hcore : HasCore registry) {s : Session app.toKit}
    (hc : Follows registry limit h granted ms s.connection) (op : Operation app.toKit)
    (hspares : op.Spares app s) :
    Follows registry limit h (granted ∨ ∃ c m, op.Dispatches app s c m ∧ c.Grants m h)
      ((happenings app (op.actions app s) s.connection).foldl (Happening.note h.id) ms)
      (op.perform app s).connection := by
  -- an operation in which no request reaches the connection grants nothing
  have hquiet : ∀ {ms : List Message} {c : Connection app.toKit}, (∀ c m, ¬ op.Dispatches app s c m) →
      Follows registry limit h granted ms c →
        Follows registry limit h (granted ∨ ∃ c m, op.Dispatches app s c m ∧ c.Grants m h) ms c := by
    intro ms c hnone hc
    refine hc.mono fun hgranted => hgranted.resolve_right ?_
    rintro ⟨c, m, hreaches, -⟩
    exact hnone c m hreaches
  have hstopped : ∀ {e : SessionError}, s.requireOpen = .error e → ∀ c m, ¬ op.Dispatches app s c m := by
    intro e hrefused c m hreaches
    rw [Session.requireOpen_of_open hreaches.isOpen] at hrefused
    cases hrefused
  have hreport : ∀ {a : Action app.toKit}, a.IsReport → ∀ b ∈ [a], b.IsReport :=
    fun ha b hb => List.mem_singleton.1 hb ▸ ha
  rw [← op.replay_perform]
  cases op with
  | feed bytes =>
    unfold Operation.actions
    dsimp only
    cases hopen : s.requireOpen with
    | error e => exact hquiet (hstopped hopen) hc
    | ok _ =>
      refine (process (s := { s with inbound := s.inbound ++ bytes }) hcore hc fun c m hreaches =>
        hspares.handlers c m (.feed hreaches)).mono (Or.imp_right ?_)
      rintro ⟨c, m, hreaches | _, hgrants⟩
      exact ⟨c, m, hreaches, hgrants⟩
  | feedFds fds =>
    unfold Operation.actions
    dsimp only
    cases hopen : s.requireOpen with
    | error e => exact hquiet (hstopped hopen) hc
    | ok _ =>
      dsimp only
      split
      · rename_i hmany
        refine hquiet ?_ (hc.replay_of_isReport Connection.isReport_of_mem_failActions)
        rintro c m (_ | ⟨hfew, _⟩)
        exact Nat.not_lt_of_le hfew hmany
      · rename_i hfew
        refine (process (s := { s with fds := s.fds ++ fds }) hcore hc fun c m hreaches =>
          hspares.handlers c m (.feedFds (Nat.le_of_not_lt hfew) hreaches)).mono (Or.imp_right ?_)
        rintro ⟨c, m, _ | ⟨_, hreaches⟩, hgrants⟩
        exact ⟨c, m, hreaches, hgrants⟩
  | dispatch m =>
    unfold Operation.actions
    dsimp only
    cases hopen : s.requireOpen with
    | error e => exact hquiet (hstopped hopen) hc
    | ok _ =>
      have hopen := Session.isOpen_of_requireOpen hopen
      have hfirst := hc.dispatch hcore hopen (hspares.handlers _ _ (.dispatch hopen))
      dsimp only
      rw [happenings_append, List.foldl_append, replay_append]
      refine (hfirst.replay_of_isReport fun a ha => ?_).mono (Or.imp_right ?_)
      · split at ha
        · exact Connection.isReport_of_mem_failActions a ha
        · cases ha
      · rintro ⟨c, m, _ | _ | _, hgrants⟩
        exact hgrants
  | postEvent h' opcode args =>
    refine hquiet (by rintro _ _ ⟨⟩) ?_
    unfold Operation.actions Operation.handleActions
    dsimp only
    cases hfound : s.connection.table.byHandle h' with
    | error e => exact hc
    | ok o =>
      refine hc.replay_of_plain (Connection.isPlain_of_mem_postActions app none)
        Connection.queuesFor_of_mem_postActions fun hgranted hlive hid => ?_
      -- the object at the id of the registry would be one, and the owner posts for none
      obtain ⟨o', hlive⟩ := Option.isSome_iff_exists.1 hlive
      have hget := (Table.behind_eq_some_iff.1 (Table.byHandle_eq_ok_iff.1 hfound)).1
      rw [hid, (Table.behind_eq_some_iff.1 hlive).1] at hget
      injection hget with hsame
      exact hspares.posts h' opcode args rfl o hfound (hsame ▸ ((hc.informed hgranted).2.told o' hlive).1)
  | removeGlobal name => exact hquiet (by rintro _ _ ⟨⟩) (hc.removeGlobal hcore name)
  | drainOutbound => exact hquiet (by rintro _ _ ⟨⟩) hc.drain
  | takeOutboundFds => exact hquiet (by rintro _ _ ⟨⟩) hc.drainFds
  | bind h' implementation =>
    exact hquiet (by rintro _ _ ⟨⟩)
      (hc.replay_of_isReport (Operation.isReport_of_mem_handleActions ⟨(Option.some_ne_none _).symm, trivial⟩))
  | destroy h' =>
    exact hquiet (by rintro _ _ ⟨⟩)
      (hc.replay_of_isReport (Operation.isReport_of_mem_handleActions ⟨trivial, trivial⟩))
  | createObject interface version =>
    exact hquiet (by rintro _ _ ⟨⟩) (hc.replay_of_isReport (hreport ⟨trivial, trivial⟩))
  | close => exact hquiet (by rintro _ _ ⟨⟩) (hc.replay_of_isReport (hreport ⟨trivial, trivial⟩))
  | enterWorld world => exact hquiet (by rintro _ _ ⟨⟩) (hc.replay_of_isReport (hreport ⟨trivial, trivial⟩))

end Follows

end

/-! ## Runs -/

section
variable (app : Application)

/-- In no operation of a run the application posts an event of a registry. -/
def Session.Spares (s : Session app.toKit) (ops : List (Operation app.toKit)) : Prop :=
  ∀ before op after, ops = before ++ op :: after → op.Spares app (s.performAll app before)

/-- In the course of a run the display grants a registry under a handle. -/
def Session.Grants (s : Session app.toKit) (ops : List (Operation app.toKit)) (h : Handle) : Prop :=
  ∃ before op after c m, ops = before ++ op :: after ∧ op.Dispatches app (s.performAll app before) c m ∧
    c.Grants m h

variable {app} {registry : Registry} {limit : Nat} {h : Handle}

theorem Session.not_grants_nil (s : Session app.toKit) : ¬ s.Grants app [] h := by
  rintro ⟨before, op, after, c, m, heq, -⟩
  exact List.append_ne_nil_of_right_ne_nil _ (List.cons_ne_nil _ _) heq.symm

/-- A registry is granted in the first operation of a run, or later. -/
theorem Session.grants_cons {s : Session app.toKit} {op : Operation app.toKit}
    {ops : List (Operation app.toKit)} : s.Grants app (op :: ops) h ↔
      (∃ c m, op.Dispatches app s c m ∧ c.Grants m h) ∨ (op.perform app s).Grants app ops h := by
  constructor
  · rintro ⟨before, op', after, c, m, heq, hreaches, hgrants⟩
    cases before with
    | nil =>
      injection heq with hop _
      subst hop
      exact .inl ⟨c, m, hreaches, hgrants⟩
    | cons op'' before =>
      injection heq with hop heq
      subst hop
      exact .inr ⟨before, op', after, c, m, heq, hreaches, hgrants⟩
  · rintro (⟨c, m, hreaches, hgrants⟩ | ⟨before, op', after, c, m, heq, hreaches, hgrants⟩)
    · exact ⟨[], op, ops, c, m, rfl, hreaches, hgrants⟩
    · exact ⟨op :: before, op', after, c, m, congrArg (op :: ·) heq, hreaches, hgrants⟩

/-- A session begins without any registry. -/
theorem Follows.new {client : Nat} {globals : Globals app.Binder} {limits : Limits} {world : app.World}
    {s : Session app.toKit} (hnew : Session.new client registry globals limits world = .ok s)
    (hfits : ∀ g ∈ globals.entries, g.offer.Fits (min limits.maxMessageSize Wire.maxMessageSize))
    (h : Handle) (ms : List Message) :
    Follows registry (min limits.maxMessageSize Wire.maxMessageSize) h False ms s.connection :=
  ⟨.new hnew hfits, .new hnew, .new hnew, False.elim⟩

/-- Throughout a run the client is informed from when its registry is granted. -/
theorem Follows.performAll (hcore : HasCore registry) (ops : List (Operation app.toKit)) :
    ∀ {s : Session app.toKit} {granted : Prop} {ms : List Message},
      Follows registry limit h granted ms s.connection → s.Spares app ops →
        Follows registry limit h (granted ∨ s.Grants app ops h)
          ((s.events app ops).foldl (Happening.note h.id) ms) (s.performAll app ops).connection := by
  induction ops with
  | nil =>
    intro s granted ms hc _
    exact hc.mono fun hgranted => hgranted.resolve_right s.not_grants_nil
  | cons op ops ih =>
    intro s granted ms hc hspares
    have hfirst := hc.perform hcore op (hspares [] op ops rfl)
    have hrest : (op.perform app s).Spares app ops := fun before op' after heq =>
      hspares (op :: before) op' after (congrArg (op :: ·) heq)
    have hall := ih hfirst hrest
    rw [Session.events, List.foldl_append]
    refine hall.mono fun hgranted => ?_
    rw [Session.grants_cons, ← or_assoc] at hgranted
    exact hgranted

/-- Registries are in step with the globals.  In every run of a session whose globals can be announced, and
whose application posts no events of registries itself, the client of a live registry that the display has
granted knows just the globals of the session, once it has heard the events of that registry. -/
theorem heard_eq_offers_of_grants {client : Nat} {globals : Globals app.Binder} {limits : Limits}
    {world : app.World} {s : Session app.toKit} (hcore : HasCore registry)
    (hnew : Session.new client registry globals limits world = .ok s)
    (hfits : ∀ g ∈ globals.entries, g.offer.Fits (min limits.maxMessageSize Wire.maxMessageSize))
    {ops : List (Operation app.toKit)} (hspares : s.Spares app ops) (hgranted : s.Grants app ops h)
    {o : Object (Implementation app.Handler)}
    (hlive : (s.performAll app ops).connection.table.byHandle h = .ok o) :
    o.interface.name = Core.registryName ∧
      Offer.heard (eventsOf h.id (s.history app ops)) = (s.performAll app ops).connection.globals.offers := by
  have hfollows := (Follows.new hnew hfits h (Happening.note h.id [] (.inserted .display))).performAll hcore
    ops hspares
  obtain ⟨-, hinformed⟩ := hfollows.informed (.inr hgranted)
  exact hinformed.told o (Table.byHandle_eq_ok_iff.1 hlive)

end

/-! ### A session with globals -/

/-- An application whose globals can be bound, and whose handlers do nothing. -/
def Application.offering : Application where
  Handler := Unit
  Binder := Unit
  World := Unit
  request handler _ := .done (handler, .ok ())
  destroyed _ _ world := world
  bind _ _ _ := pure ()

/-- A seat and a screen. -/
def offeredGlobals : Globals Unit where
  entries := [⟨1, "seat", 3, ()⟩, ⟨2, "screen", 1, ()⟩]
  lastName := 2

/-- A session of that application as it is opened, with the default limits. -/
def Session.offering : Session Application.offering.toKit where
  limits := {}
  connection :=
    { client := 0
      registry := .core
      globals := offeredGlobals
      table :=
        { objects := [(.display, ⟨Core.display, 1, 1, some .display⟩)]
          capacity := 1024
          nextGeneration := 2 }
      outbound := Wire.Outbox.withLimit 4096
      world := () }

def listenerId : ObjectId := ⟨12, by decide⟩

/-- The client asks for a registry, and then the seat is withdrawn. -/
def withdrawingRun : List (Operation Application.offering.toKit) :=
  [.dispatch ⟨.display, Core.getRegistryOpcode, [.newId listenerId]⟩, .removeGlobal 1, .drainOutbound]

/-- What is left is the screen, and the client knows. -/
theorem heard_eq_offers_of_grants_sample :
    Session.new 0 .core offeredGlobals {} () = .ok Session.offering ∧
      Session.offering.Spares .offering withdrawingRun ∧
      Session.offering.Grants .offering withdrawingRun ⟨listenerId, 2⟩ ∧
      (Session.offering.performAll .offering withdrawingRun).connection.globals.offers = [⟨2, "screen", 1⟩] ∧
      Offer.heard (eventsOf listenerId (Session.offering.history .offering withdrawingRun)) =
        (Session.offering.performAll .offering withdrawingRun).connection.globals.offers := by
  have hnew : Session.new 0 .core offeredGlobals {} () = .ok Session.offering := rfl
  have hcore : HasCore .core := ⟨rfl, rfl⟩
  have hfits : ∀ g ∈ offeredGlobals.entries, g.offer.Fits (min 4096 Wire.maxMessageSize) :=
    List.forall_mem_cons.2 ⟨⟨by decide +kernel, by decide +kernel⟩,
      List.forall_mem_cons.2 ⟨⟨by decide +kernel, by decide +kernel⟩, nofun⟩⟩
  have hspares : Session.offering.Spares .offering withdrawingRun := by
    rintro before op after heq
    have hop : op ∈ withdrawingRun := heq ▸ List.mem_append_right _ (List.mem_cons_self ..)
    rcases List.mem_cons.1 hop with rfl | hop
    · refine ⟨?_, fun _ _ _ => nofun⟩
      rintro c m (_ | _ | _) hdisplay
      exact absurd rfl hdisplay
    · rcases List.mem_cons.1 hop with rfl | hop
      · exact ⟨fun _ _ => nofun, fun _ _ _ => nofun⟩
      · rw [List.mem_singleton.1 hop]
        exact ⟨fun _ _ => nofun, fun _ _ _ => nofun⟩
  have hgranted : Session.offering.Grants .offering withdrawingRun ⟨listenerId, 2⟩ :=
    ⟨[], _, _, _, _, rfl, .dispatch rfl, rfl, ⟨_, rfl⟩, rfl⟩
  have hlive : ∃ o, (Session.offering.performAll .offering withdrawingRun).connection.table.byHandle
      ⟨listenerId, 2⟩ = .ok o := ⟨_, rfl⟩
  obtain ⟨o, hlive⟩ := hlive
  exact ⟨hnew, hspares, hgranted, by decide +kernel,
    (heard_eq_offers_of_grants hcore hnew hfits hspares hgranted hlive).2⟩

end Compositor.Sessions
