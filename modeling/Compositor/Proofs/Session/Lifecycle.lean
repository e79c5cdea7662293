import Compositor.Proofs.Session.Episodes
import Compositor.Proofs.Session.Orderly
import Compositor.Proofs.Session.Outcomes
import Compositor.Proofs.Session.Violations

/-
  The life of a session.

  A connection stops once and for good.  From then on it is frozen: of all that orderly actions do, only
  notices, changes of the world and the count remain (`Orderly.frozen`), also where a handler stops its own
  session and goes on.  A stopped connection has no objects, and a closed one has nothing queued
  (`Settled`); only draining closes it (`Orderly.advances`, `Operation.advances`).  `Orderly.first` is the
  one case analysis behind this.

  `keepsLife_of_new` puts this together for every operation in every run.
-/

namespace Compositor.Sessions

open Compositor.Wire (Arg Descriptor Message ObjectId)
open Compositor.Objects (Handle Object Table)
open Compositor.Protocol (Registry)

/-! ## What a stopped connection refuses -/

namespace Connection

/-- The operations of a server on its objects fail, and change nothing. -/
structure Refuses (app : Application) (c : Connection app.toKit) : Prop where
  post : ∀ id opcode args, c.post app id opcode args = (.error (.notOpen c.state), c)
  create : ∀ interface version, c.create interface version = (.error (.notOpen c.state), c)
  bind : ∀ id implementation, c.bind id implementation = (.error (.notOpen c.state), c)
  destroy : ∀ id, c.destroy app id = (.error (.notOpen c.state), c)
  removeGlobal : ∀ name, c.removeGlobal app name = (.error (.notOpen c.state), c)

theorem requireOpen_of_not_open {K : Kit} {c : Connection K} (h : c.isOpen = false) :
    c.requireOpen = .error (.notOpen c.state) := by
  unfold isOpen at h
  unfold requireOpen
  cases hstate : c.state with
  | «open» =>
    rw [hstate] at h
    cases h
  | closing => rfl
  | closed => rfl

theorem encodeEvent_of_not_open {K : Kit} {c : Connection K} (h : c.isOpen = false) (id : ObjectId)
    (opcode : UInt16) (args : List Arg) :
    c.encodeEvent id opcode args = .error (.notOpen c.state) := by
  unfold encodeEvent
  rw [requireOpen_of_not_open h]

theorem refuses_of_not_open {app : Application} {c : Connection app.toKit} (h : c.isOpen = false) :
    c.Refuses app := by
  have hrequire := requireOpen_of_not_open h
  refine ⟨fun id opcode args => ?_, fun interface version => ?_, fun id i => ?_, fun id => ?_,
    fun name => ?_⟩
  · unfold post
    rw [encodeEvent_of_not_open h]
  · unfold create
    rw [hrequire]
  · unfold bind
    rw [hrequire]
  · unfold destroy
    rw [hrequire]
  · unfold removeGlobal
    rw [hrequire]

/-- The connection is the same but for the count and the world. -/
def Frozen {K : Kit} (c c' : Connection K) : Prop := ∃ serial world, c' = { c with serial, world }

theorem Frozen.refl {K : Kit} (c : Connection K) : Frozen c c := ⟨c.serial, c.world, rfl⟩

theorem Frozen.trans {K : Kit} {c c' c'' : Connection K} (h : Frozen c c') (h' : Frozen c' c'') :
    Frozen c c'' := by
  obtain ⟨_, _, rfl⟩ := h
  obtain ⟨serial, world, rfl⟩ := h'
  exact ⟨serial, world, rfl⟩

end Connection

/-- What may still happen when a connection has stopped: a program replaces the world, or an
implementation that was out takes note of the end of its object. -/
def Episode.IsEpilogue {K : Kit} (e : Episode K) : Prop :=
  (∃ world, e = .recorded world) ∨ ∃ h i, e = .notified h i

section
variable {app : Application} {c : Connection app.toKit}

/-- Plain actions leave a stopped connection as it is. -/
theorem Action.frozen_of_isPlain (hstop : c.isOpen = false) {running : Option ObjectId}
    {a : Action app.toKit} (hplain : a.IsPlain running) :
    Connection.Frozen c (a.apply app c) ∧ ∀ e ∈ a.episodes app c, e.IsEpilogue := by
  have hrefuses := Connection.refuses_of_not_open hstop
  have hnothing : ∀ e ∈ ([] : List (Episode app.toKit)), e.IsEpilogue := List.forall_mem_nil _
  cases a with
  | queue id opcode args =>
    unfold apply
    dsimp only
    rw [Connection.encodeEvent_of_not_open hstop]
    exact ⟨.refl c, hnothing⟩
  | destroy id =>
    unfold apply episodes
    dsimp only
    rw [hrefuses.destroy]
    refine ⟨.refl c, ?_⟩
    dsimp only
    split
    · exact hnothing
    · exact hnothing
  | create interface version =>
    unfold apply episodes
    dsimp only
    rw [hrefuses.create]
    exact ⟨.refl c, hnothing⟩
  | insertCreated version params args =>
    unfold apply episodes
    dsimp only
    rw [hstop]
    exact ⟨.refl c, hnothing⟩
  | bind id i =>
    unfold apply episodes
    dsimp only
    rw [hrefuses.bind]
    exact ⟨.refl c, hnothing⟩
  | count => exact ⟨⟨_, c.world, rfl⟩, hnothing⟩
  | record world => exact ⟨⟨c.serial, world, rfl⟩, List.forall_mem_singleton.2 (.inl ⟨world, rfl⟩)⟩
  | close =>
    unfold apply episodes Connection.close
    dsimp only
    rw [hstop]
    exact ⟨.refl c, hnothing⟩
  | take id => exact False.elim hplain
  | giveBack id generation i => exact False.elim hplain
  | withdraw name => exact False.elim hplain
  | drain => exact False.elim hplain
  | drainFds => exact False.elim hplain

/-- Without objects there is nothing to give an implementation back to. -/
theorem frozen_giveBack (hempty : c.table.objects = []) (id : ObjectId) (generation : Nat)
    (i : Implementation app.Handler) :
    Connection.Frozen c (c.giveBack app id generation i) ∧
      ∀ e ∈ Action.episodes app (.giveBack id generation i) c, e.IsEpilogue := by
  rcases giveBack_episodes_cases app c id generation i with
    ⟨object, hlive, -⟩ | ⟨-, hepisodes, heq⟩
  · have hget := (Table.behind_eq_some_iff.1 (Table.byHandle_eq_ok_iff.1 hlive)).1
    rw [hempty] at hget
    cases hget
  · rw [hepisodes, heq]
    exact ⟨⟨c.serial, _, rfl⟩, List.forall_mem_singleton.2 (.inr ⟨_, i, rfl⟩)⟩

end

/-! ## Moving forward -/

/-- A stopped connection has no objects, and a closed one has nothing queued. -/
structure Settled {K : Kit} (c : Connection K) : Prop where
  swept : c.isOpen = false → c.table.objects = []
  spent : c.state = .closed → c.outbound.bytes = []

section
variable {app : Application} {c : Connection app.toKit}

theorem isOpen_iff {K : Kit} {c : Connection K} : c.isOpen ↔ c.state = .open := beq_iff_eq

theorem not_isOpen_iff {K : Kit} {c : Connection K} : c.isOpen = false ↔ c.state ≠ .open :=
  beq_eq_false_iff_ne

/-- A destruction that fails halfway does not stop the connection either. -/
theorem Connection.state_destroy (c : Connection app.toKit) (id : ObjectId) :
    (c.destroy app id).2.state = c.state := by
  rcases destroy_outcomes app c id with ⟨e, heq⟩ | ⟨o, table, -, -, -, ⟨e, -, heq⟩ | heq⟩
  · rw [heq]
  · rw [heq]
  · rw [heq]
    exact (announced_keeps _ id).2.1

theorem Connection.state_create (c : Connection app.toKit) (interface : String) (version : UInt32) :
    (c.create interface version).2.state = c.state := by
  rcases c.create_cases interface version with ⟨e, heq⟩ | ⟨i, id, h, table, -, -, -, heq⟩
  · rw [heq]
  · rw [heq]

theorem Connection.state_bind (c : Connection app.toKit) (id : ObjectId) (i : Implementation app.Handler) :
    (c.bind id i).2.state = c.state := by
  rcases c.bind_cases id i with ⟨e, heq⟩ | ⟨o, -, -, -, heq⟩
  · rw [heq]
  · rw [heq]

/-- Only stopping changes the state of a connection, and it leaves no objects. -/
theorem Action.state_of_isPlain {running : Option ObjectId} {a : Action app.toKit}
    (hplain : a.IsPlain running) : (a.apply app c).state = c.state ∨
      c.state = .open ∧ (a.apply app c).state = .closing ∧ (a.apply app c).table.objects = [] := by
  have houtcome := a.outcome c
  generalize a.apply app c = c', a.happenings app c = hs at houtcome ⊢
  cases houtcome with
  | destroyed => exact .inl (c.state_destroy _)
  | closed =>
    unfold Connection.close
    split
    · rename_i hopen
      exact .inr ⟨isOpen_iff.1 hopen, rfl, rfl⟩
    · exact .inl rfl
  | drained => exact False.elim hplain
  | _ => exact .inl rfl

/-- What is needed of one step for a connection to stay settled. -/
theorem Settled.step {K : Kit} {c c' : Connection K} (hs : Settled c)
    (hstate : c'.state = c.state ∨ c.state = .open ∧ c'.state = .closing ∧ c'.table.objects = [])
    (hfrozen : c.isOpen = false → c.Frozen c') : Settled c' := by
  refine ⟨fun hstop => ?_, fun hclosed => ?_⟩
  · rcases hstate with hsame | ⟨-, -, hempty⟩
    · have hstop' : c.isOpen = false := by
        rw [not_isOpen_iff, ← hsame]
        exact not_isOpen_iff.1 hstop
      obtain ⟨serial, world, rfl⟩ := hfrozen hstop'
      exact hs.swept hstop'
    · exact hempty
  · rcases hstate with hsame | ⟨-, hclosing, -⟩
    · have hclosed' : c.state = .closed := hsame.symm.trans hclosed
      have hstop : c.isOpen = false := not_isOpen_iff.2 (by rw [hclosed']; exact nofun)
      obtain ⟨serial, world, rfl⟩ := hfrozen hstop
      exact hs.spent hclosed'
    · rw [hclosing] at hclosed
      cases hclosed

/-- The first of orderly actions: it stops the connection at most, and changes nothing once that is
done. -/
theorem Orderly.first {running running' : Option Handle} {a : Action app.toKit}
    {as : List (Action app.toKit)} (horderly : Orderly app running (a :: as) c running')
    (hs : Settled c) : (∃ running, Orderly app running as (a.apply app c) running') ∧
      ((a.apply app c).state = c.state ∨
        c.state = .open ∧ (a.apply app c).state = .closing ∧ (a.apply app c).table.objects = []) ∧
      (c.isOpen = false → c.Frozen (a.apply app c) ∧ ∀ e ∈ a.episodes app c, e.IsEpilogue) := by
  have htake : ∀ {id o}, c.table.get id = .ok o →
      (c.takeImplementation id).2.state = c.state ∧ c.isOpen ≠ false := by
    intro id o hget
    constructor
    · rw [Connection.takeImplementation_of_get hget]
    · intro hstop
      -- there are no objects to take anything out of
      have hlive := Table.get_eq_ok_iff_get?.1 hget
      rw [hs.swept hstop] at hlive
      cases hlive
  cases horderly with
  | plain hplain hrest =>
    exact ⟨⟨_, hrest⟩, Action.state_of_isPlain hplain, fun hstop =>
      Action.frozen_of_isPlain hstop hplain⟩
  | take hget _ hrest =>
    exact ⟨⟨_, hrest⟩, .inl (htake hget).1, fun hstop => absurd hstop (htake hget).2⟩
  | skip hget _ hrest =>
    exact ⟨⟨_, hrest⟩, .inl (htake hget).1, fun hstop => absurd hstop (htake hget).2⟩
  | @giveBack _ h i _ _ hrest =>
    refine ⟨⟨_, hrest⟩, .inl ?_, fun hstop => frozen_giveBack (hs.swept hstop) h.id h.generation i⟩
    show (c.giveBack app h.id h.generation i).state = c.state
    rcases c.giveBack_cases app h.id h.generation i with ⟨o, -, -, heq⟩ | ⟨-, heq⟩
    · rw [heq]
    · rw [heq]
  | withdraw hopen hrest =>
    refine ⟨⟨_, hrest⟩, .inl ?_, fun hstop => ?_⟩
    · unfold Action.apply
      dsimp only
      split
      · rfl
      · rfl
    · rw [hstop] at hopen
      cases hopen

/-- Orderly actions stop a connection at most, and never close it. -/
theorem Orderly.advances {running running' : Option Handle} {as : List (Action app.toKit)}
    (horderly : Orderly app running as c running') (hs : Settled c) : Settled (replay app as c) ∧
      ((replay app as c).state = c.state ∨
        c.state = .open ∧ (replay app as c).state = .closing) := by
  induction as generalizing running c with
  | nil => exact ⟨hs, .inl rfl⟩
  | cons a as ih =>
    obtain ⟨⟨running, hrest⟩, hstate, hfrozen⟩ := horderly.first hs
    have hsettled := hs.step hstate fun hstop => (hfrozen hstop).1
    obtain ⟨hlast, hafter⟩ := ih hrest hsettled
    refine ⟨hlast, ?_⟩
    rcases hstate with hsame | ⟨hopen, hclosing, -⟩
    · rw [hsame] at hafter
      exact hafter
    · rw [hclosing] at hafter
      rcases hafter with hsame | ⟨hnot, -⟩
      · exact .inr ⟨hopen, hsame⟩
      · cases hnot

/-- Orderly actions leave a connection that has stopped as it is: no object enters or leaves, nothing is
queued, and no implementation is asked. -/
theorem Orderly.frozen {running running' : Option Handle} {as : List (Action app.toKit)}
    (horderly : Orderly app running as c running') (hs : Settled c) (hstop : c.isOpen = false) :
    c.Frozen (replay app as c) ∧ ∀ e ∈ episodes app as c, e.IsEpilogue := by
  induction as generalizing running c with
  | nil => exact ⟨.refl c, List.forall_mem_nil _⟩
  | cons a as ih =>
    obtain ⟨⟨running, hrest⟩, hstate, hfrozen⟩ := horderly.first hs
    obtain ⟨hfirst, hepilogue⟩ := hfrozen hstop
    have hsettled := hs.step hstate fun _ => hfirst
    have hstop' : (a.apply app c).isOpen = false := by
      obtain ⟨serial, world, heq⟩ := hfirst
      rw [heq]
      exact hstop
    obtain ⟨hlast, hafter⟩ := ih hrest hsettled hstop'
    exact ⟨hfirst.trans hlast, List.forall_mem_append.2 ⟨hepilogue, hafter⟩⟩

end

/-! ## Operations -/

/-- An operation moves the life of a session by one step at most, and only draining closes it. -/
def Operation.Advances {K : Kit} (op : Operation K) : Lifecycle → Lifecycle → Prop
  | .open, after => after = .open ∨ after = .closing
  | .closing, after => after = .closing ∨ after = .closed ∧ op = .drainOutbound
  | .closed, after => after = .closed

section
variable {app : Application} {s : Session app.toKit}

/-- Handing over the queue closes a connection that was stopped, and changes nothing else. -/
theorem Settled.takeOutbound {K : Kit} {c : Connection K} (hs : Settled c) :
    Settled c.takeOutbound.2 := by
  have hstate : c.takeOutbound.2.state = if c.state = .closing then .closed else c.state := rfl
  obtain ⟨hobjects, -⟩ := Table.acknowledgeAll_keeps c.pendingAcks c.table
  refine ⟨fun hstop => ?_, fun _ => rfl⟩
  have hstop' : c.isOpen = false := by
    rw [not_isOpen_iff] at hstop ⊢
    intro hopen
    rw [hstate, hopen] at hstop
    exact hstop rfl
  exact hobjects.trans (hs.swept hstop')

theorem Operation.advances (op : Operation app.toKit) (hs : Settled s.connection) :
    Settled (op.perform app s).connection ∧ op.Advances s.state (op.perform app s).state := by
  rcases op.orderly_actions app s with rfl | rfl | horderly
  · refine ⟨hs.takeOutbound, ?_⟩
    show Advances _ s.connection.state
      (if s.connection.state = .closing then .closed else s.connection.state)
    cases s.connection.state with
    | «open» => exact .inl rfl
    | closing => exact .inr ⟨rfl, rfl⟩
    | closed => rfl
  · refine ⟨⟨hs.swept, hs.spent⟩, ?_⟩
    show Advances _ s.connection.state s.connection.state
    cases s.connection.state with
    | «open» => exact .inl rfl
    | closing => exact .inl rfl
    | closed => rfl
  · obtain ⟨hsettled, hstate⟩ := horderly.advances hs
    rw [op.replay_perform] at hsettled hstate
    refine ⟨hsettled, ?_⟩
    show op.Advances s.connection.state (op.perform app s).connection.state
    rcases hstate with hsame | ⟨hopen, hclosing⟩
    · rw [hsame]
      cases s.connection.state with
      | «open» => exact .inl rfl
      | closing => exact .inl rfl
      | closed => rfl
    · rw [hopen, hclosing]
      exact .inr rfl

theorem Settled.performAll (hs : Settled s.connection) (ops : List (Operation app.toKit)) :
    Settled (s.performAll app ops).connection := by
  induction ops generalizing s with
  | nil => exact hs
  | cons op ops ih => exact ih (op.advances hs).1

theorem Settled.new {K : Kit} {client : Nat} {registry : Registry} {globals : Globals K.Binder}
    {limits : Limits} {world : K.World} {s : Session K}
    (hnew : Session.new client registry globals limits world = .ok s) :
    s.state = .open ∧ Settled s.connection := by
  obtain ⟨_, _, _, -, -, rfl⟩ := Session.exists_of_new hnew
  refine ⟨rfl, fun hstop => ?_, fun hclosed => ?_⟩
  · cases hstop
  · cases hclosed

end

/-! ## The life of a session -/

/-- A session that has stopped: it has no objects, all that its owner wants is refused and changes nothing,
and no operation has an implementation handle a request. -/
structure Stopped (app : Application) (s : Session app.toKit) : Prop where
  empty : s.connection.table.objects = []
  feed : ∀ bytes, s.feed app bytes = (.error (.notOpen s.state), s)
  feedFds : ∀ fds, s.feedFds app fds = (.error (.notOpen s.state), s)
  dispatch : ∀ m, s.dispatch app m = (.error (.notOpen s.state), s)
  postEvent : ∀ h opcode args, ∃ e, s.postEvent app h opcode args = (.error e, s)
  createObject : ∀ interface version, ∃ e, s.createObject app interface version = (.error e, s)
  bind : ∀ h implementation, ∃ e, s.bind app h implementation = (.error e, s)
  destroy : ∀ h, ∃ e, s.destroy app h = (.error e, s)
  removeGlobal : ∀ name, ∃ e, s.removeGlobal app name = (.error e, s)
  unasked : ∀ op : Operation app.toKit, ∀ e ∈ op.episodes app s, e.IsEpilogue

/-- How an operation treats the life of a session. -/
structure KeepsLife (app : Application) (s : Session app.toKit) (op : Operation app.toKit) : Prop where
  advances : op.Advances s.state (op.perform app s).state
  violation : ∀ v, op.Violates app s v → (op.perform app s).state = .closing ∧
    (op.perform app s).inbound = [] ∧ (op.perform app s).fds = []
  stopped : s.state ≠ .open → Stopped app s
  /-- Once the connection has stopped in the middle of the operation, what a handler wants is refused, and
  what is left to do changes nothing but the count and the world. -/
  freezes : ∀ as bs, op.actions app s = as ++ bs → (replay app as s.connection).isOpen = false →
    (replay app as s.connection).Refuses app ∧
      (op = .drainOutbound ∨ op = .takeOutboundFds ∨
        (replay app as s.connection).Frozen (op.perform app s).connection ∧
          ∀ e ∈ episodes app bs (replay app as s.connection), e.IsEpilogue)
  /-- Outside of the open state the queue does not grow. -/
  shrinks : s.state ≠ .open →
    (op.perform app s).connection.outbound.bytes = s.connection.outbound.bytes ∨
      op = .drainOutbound ∧ (op.perform app s).connection.outbound.bytes = []
  /-- Closing is for good, and nothing is queued then. -/
  ends : (op.perform app s).state = .closed → ∀ ops,
    ((op.perform app s).performAll app ops).state = .closed ∧
      ((op.perform app s).performAll app ops).connection.outbound.bytes = []

section
variable {app : Application} {s : Session app.toKit}

/-- An operation on the object behind a handle is refused if it is refused whatever the object. -/
theorem Session.onHandle_of_refused {α : Type} (h : Handle)
    {f : Connection app.toKit → Except Refusal α × Connection app.toKit} {e : Refusal}
    (hf : f s.connection = (.error e, s.connection)) : ∃ e, s.onHandle app h f = (.error e, s) := by
  unfold onHandle onConnection
  split
  · exact ⟨_, rfl⟩
  · rw [hf]
    exact ⟨e, rfl⟩

theorem Session.onConnection_of_refused {α : Type}
    {f : Connection app.toKit → Except Refusal α × Connection app.toKit} {e : Refusal}
    (hf : f s.connection = (.error e, s.connection)) : ∃ e, s.onConnection app f = (.error e, s) := by
  unfold onConnection
  rw [hf]
  exact ⟨e, rfl⟩

theorem stopped_of_not_open (hs : Settled s.connection) (hstop : s.connection.isOpen = false) :
    Stopped app s := by
  have hrefuses := Connection.refuses_of_not_open hstop
  refine ⟨hs.swept hstop, Session.feed_of_not_open app hstop, Session.feedFds_of_not_open app hstop,
    Session.dispatch_of_not_open app hstop, fun h opcode args => ?_, fun interface version => ?_,
    fun h i => ?_, fun h => ?_, fun name => ?_, fun op => ?_⟩
  · exact Session.onHandle_of_refused h (hrefuses.post h.id opcode args)
  · exact Session.onConnection_of_refused (hrefuses.create interface version)
  · exact Session.onHandle_of_refused h (hrefuses.bind h.id i)
  · exact Session.onHandle_of_refused h (hrefuses.destroy h.id)
  · exact Session.onConnection_of_refused (hrefuses.removeGlobal name)
  · rcases op.orderly_actions app s with rfl | rfl | horderly
    · exact List.forall_mem_nil _
    · exact List.forall_mem_nil _
    · exact (horderly.frozen hs hstop).2

/-- A closed session stays closed. -/
theorem closed_performAll (hclosed : s.state = .closed) (hs : Settled s.connection)
    (ops : List (Operation app.toKit)) : (s.performAll app ops).state = .closed := by
  induction ops generalizing s with
  | nil => exact hclosed
  | cons op ops ih =>
    obtain ⟨hsettled, hadvances⟩ := op.advances hs
    rw [hclosed] at hadvances
    exact ih hadvances hsettled

/-- What is left of an operation when the connection stops in the middle of it. -/
theorem freezes_of_settled (hs : Settled s.connection) (op : Operation app.toKit)
    {as bs : List (Action app.toKit)} (hactions : op.actions app s = as ++ bs)
    (hstop : (replay app as s.connection).isOpen = false) :
    op = .drainOutbound ∨ op = .takeOutboundFds ∨
      (replay app as s.connection).Frozen (op.perform app s).connection ∧
        ∀ e ∈ episodes app bs (replay app as s.connection), e.IsEpilogue := by
  refine (op.orderly_actions app s).imp_right (Or.imp_right fun horderly => ?_)
  rw [hactions] at horderly
  obtain ⟨running, has, hbs⟩ := horderly.exists_of_append
  rw [← op.replay_perform, hactions, replay_append]
  exact hbs.frozen (has.advances hs).1 hstop

/-- Every operation keeps the life of a settled session. -/
theorem keepsLife_of_settled (hs : Settled s.connection) (op : Operation app.toKit) :
    KeepsLife app s op := by
  obtain ⟨hsettled, hadvances⟩ := op.advances hs
  refine ⟨hadvances, fun v hv => ?_, fun hstop => stopped_of_not_open hs (not_isOpen_iff.2 hstop),
    fun as bs hactions hstop => ?_, fun hstop => ?_, fun hclosed ops => ?_⟩
  · obtain ⟨t, u, target, hfails⟩ := Operation.fails_of_violates hv
    have hfailed := Connection.isOpen_fail app u.connection v target
    have hstate : (op.perform app s).state ≠ .open := by
      rw [hfails.perform_eq]
      exact not_isOpen_iff.1 hfailed
    rw [show s.state = .open from isOpen_iff.1 (Operation.isOpen_of_violates hv)] at hadvances
    refine ⟨hadvances.resolve_left hstate, ?_, ?_⟩
    · rw [hfails.perform_eq]
      rfl
    · rw [hfails.perform_eq]
      rfl
  · exact ⟨Connection.refuses_of_not_open hstop, freezes_of_settled hs op hactions hstop⟩
  · have hactions : op.actions app s = [] ++ op.actions app s := rfl
    rcases freezes_of_settled hs op hactions (not_isOpen_iff.2 hstop) with
      rfl | rfl | ⟨⟨serial, world, heq⟩, -⟩
    · exact .inr ⟨rfl, rfl⟩
    · exact .inl rfl
    · rw [heq]
      exact .inl rfl
  · have hafter := closed_performAll hclosed hsettled ops
    exact ⟨hafter, (hsettled.performAll ops).spent hafter⟩

/-- A session is open at first, and every operation in every run keeps its life. -/
theorem keepsLife_of_new {client : Nat} {registry : Registry} {globals : Globals app.Binder}
    {limits : Limits} {world : app.World}
    (hnew : Session.new client registry globals limits world = .ok s)
    (ops : List (Operation app.toKit)) (op : Operation app.toKit) :
    s.state = .open ∧ KeepsLife app (s.performAll app ops) op := by
  obtain ⟨hopen, hsettled⟩ := Settled.new hnew
  exact ⟨hopen, keepsLife_of_settled (hsettled.performAll ops) op⟩

end

/-- When its handler has closed it, the session has stopped. -/
theorem keepsLife_of_new_sample :
    Stopped .quitting (Session.quitting.performAll .quitting quittingRun) := by
  have hkeeps := keepsLife_of_new Session.new_quitting quittingRun .drainOutbound
  have hstate : (Session.quitting.performAll .quitting quittingRun).state = .closing := rfl
  exact hkeeps.2.stopped (by rw [hstate]; exact nofun)

end Compositor.Sessions
