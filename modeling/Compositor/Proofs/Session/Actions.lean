import Compositor.Proofs.Session.Checks
import Compositor.Proofs.Session.Turns

/-
  Operations as sequences of actions.

  An operation on a connection is made of actions, each a single change: an event is queued, an object is
  destroyed, a handler is taken out of its object.  For every operation there is the list of its actions
  (`postActions`, `dispatchActions`, and so on) and a lemma that says that doing them one after the other
  comes to the same (`replay_post`, `replay_dispatch`).  So what every action preserves is preserved by
  every operation, whatever handlers do; and what happened in between can be read off the actions.

  The list follows the operation, case by case.  Handlers act through programs only, and the actions of
  a program are those of its steps (`Program.replay_run`).
-/

namespace Compositor.Sessions

open Compositor.Wire (Arg Message ObjectId Param)
open Compositor.Protocol

/-! ## Actions -/

/-- A single change of a connection.  An action that is refused changes nothing. -/
inductive Action (K : Kit) where
  /-- Queues an event. -/
  | queue (id : ObjectId) (opcode : UInt16) (args : List Arg)
  /-- Destroys an object, and announces it to the client if the id is the client's. -/
  | destroy (id : ObjectId)
  /-- Creates an object under a server id. -/
  | create (interface : String) (version : UInt32)
  /-- Inserts the object that a request creates. -/
  | insertCreated (parentVersion : UInt32) (params : List Param) (args : List Arg)
  /-- Installs the implementation of an object. -/
  | bind (id : ObjectId) (implementation : Implementation K.Handler)
  /-- Takes the implementation out of an object, for as long as it handles a request. -/
  | take (id : ObjectId)
  /-- Puts it back, or lets it take note of the end of its object. -/
  | giveBack (id : ObjectId) (generation : Nat) (implementation : Implementation K.Handler)
  /-- Takes a global off the list. -/
  | withdraw (name : UInt32)
  /-- Counts on. -/
  | count
  /-- Replaces the application's world. -/
  | record (world : K.World)
  /-- Stops the connection. -/
  | close
  /-- Hands over the queued bytes. -/
  | drain
  /-- Hands over the queued descriptors. -/
  | drainFds

section
variable (app : Application)

/-- Does an action. -/
def Action.apply : Action app.toKit → Connection app.toKit → Connection app.toKit
  | .queue id opcode args, c =>
    match c.encodeEvent id opcode args with
    | .error _ => c
    | .ok (_, outbound) => { c with outbound }
  | .destroy id, c => (c.destroy app id).2
  | .create interface version, c => (c.create interface version).2
  | .insertCreated parentVersion params args, c =>
    if c.isOpen then
      match c.insertCreated parentVersion params args with
      | .error _ => c
      | .ok c => c
    else c
  | .bind id implementation, c => (c.bind id implementation).2
  | .take id, c => (c.takeImplementation id).2
  | .giveBack id generation implementation, c => c.giveBack app id generation implementation
  | .withdraw name, c =>
    match c.globals.remove? name with
    | none => c
    | some (_, globals) => { c with globals }
  | .count, c => c.nextSerial.2
  | .record world, c => { c with world }
  | .close, c => c.close app
  | .drain, c => c.takeOutbound.2
  | .drainFds, c => c.takeOutboundFds.2

/-- Does actions one after the other. -/
def replay : List (Action app.toKit) → Connection app.toKit → Connection app.toKit
  | [], c => c
  | a :: as, c => replay as (a.apply app c)

theorem replay_append (as bs : List (Action app.toKit)) (c : Connection app.toKit) :
    replay app (as ++ bs) c = replay app bs (replay app as c) := by
  induction as generalizing c with
  | nil => rfl
  | cons a as ih => exact ih (a.apply app c)

end

/-! ## Operations on a connection -/

namespace Connection

section
variable (app : Application)

/-- The actions of posting an event: it is queued, and a destructor ends its object. -/
def postActions (c : Connection app.toKit) (id : ObjectId) (opcode : UInt16) (args : List Arg) :
    List (Action app.toKit) :=
  match c.encodeEvent id opcode args with
  | .error _ => []
  | .ok (m, _) => .queue id opcode args :: if m.destructor then [.destroy id] else []

theorem replay_post (c : Connection app.toKit) (id : ObjectId) (opcode : UInt16) (args : List Arg) :
    replay app (c.postActions app id opcode args) c = (c.post app id opcode args).2 := by
  unfold postActions post
  cases h : c.encodeEvent id opcode args with
  | error e => rfl
  | ok p =>
    obtain ⟨m, outbound⟩ := p
    have hqueue : Action.apply app (.queue id opcode args) c = { c with outbound } := by
      unfold Action.apply
      dsimp only
      rw [h]
    dsimp only
    rw [replay, hqueue]
    split
    · rfl
    · rfl

/-- The actions of reporting an error. -/
def postErrorActions (c : Connection app.toKit) (id : ObjectId) (code : UInt32) (text : String) :
    List (Action app.toKit) :=
  c.postActions app .display Core.errorOpcode
    [.object (some id), .uint code, .string (some (errorText c.outbound.limit text))]

theorem replay_postError (c : Connection app.toKit) (id : ObjectId) (code : UInt32) (text : String) :
    replay app (c.postErrorActions app id code text) c = (c.postError app id code text).2 :=
  replay_post app c _ _ _

/-- The actions of telling registry objects about a withdrawal, up to the first failure. -/
def withdrawActions (name : UInt32) : List ObjectId → Connection app.toKit → List (Action app.toKit)
  | [], _ => []
  | id :: ids, c =>
    c.postActions app id Core.globalRemoveOpcode [.uint name] ++
      match c.post app id Core.globalRemoveOpcode [.uint name] with
      | (.error _, _) => []
      | (.ok (), c) => withdrawActions name ids c

theorem replay_withdraw (name : UInt32) (ids : List ObjectId) (c : Connection app.toKit) :
    replay app (withdrawActions app name ids c) c = (withdraw app name ids c).2 := by
  induction ids generalizing c with
  | nil => rfl
  | cons id ids ih =>
    unfold withdrawActions withdraw
    rw [replay_append, replay_post]
    split
    · rename_i e c' h
      rw [h]
      rfl
    · rename_i c' h
      rw [h]
      exact ih c'

/-- The actions of withdrawing a global. -/
def removeGlobalActions (c : Connection app.toKit) (name : UInt32) : List (Action app.toKit) :=
  match c.requireOpen with
  | .error _ => []
  | .ok () =>
    match c.globals.remove? name with
    | none => []
    | some (_, globals) =>
      .withdraw name :: withdrawActions app name (c.registryIds app) { c with globals }

theorem replay_removeGlobal (c : Connection app.toKit) (name : UInt32) :
    replay app (c.removeGlobalActions app name) c = (c.removeGlobal app name).2 := by
  unfold removeGlobalActions removeGlobal
  cases c.requireOpen with
  | error e => rfl
  | ok _ =>
    dsimp only
    cases h : c.globals.remove? name with
    | none => rfl
    | some p =>
      obtain ⟨global, globals⟩ := p
      have hwithdraw : Action.apply app (.withdraw name) c = { c with globals } := by
        unfold Action.apply
        dsimp only
        rw [h]
      dsimp only
      rw [replay, hwithdraw, replay_withdraw]
      split
      · rename_i e c' hw
        rw [hw]
      · rename_i c' hw
        rw [hw]

/-- The actions of stopping a connection over a violation. -/
def failActions (c : Connection app.toKit) (v : Violation) (target : ObjectId) :
    List (Action app.toKit) :=
  c.postErrorActions app target v.code v.message ++ [.close]

theorem replay_fail (c : Connection app.toKit) (v : Violation) (target : ObjectId) :
    replay app (c.failActions app v target) c = c.fail app v target := by
  unfold failActions
  rw [replay_append, replay_postError]
  rfl

end

end Connection

/-! ## Programs -/

section
variable (app : Application) (self : ObjectId)

/-- The actions of a step; the questions among the steps have none. -/
def Step.actions : Step app.toKit → Connection app.toKit → List (Action app.toKit)
  | .post object opcode args, c => c.postActions app object opcode args
  | .bind object implementation, _ => if object = self then [] else [.bind object implementation]
  | .create interface version, _ => [.create interface version]
  | .destroy object, _ => [.destroy object]
  | .serial, _ => [.count]
  | .close, _ => [.close]
  | .record world, _ => [.record world]
  | _, _ => []

theorem Step.replay_perform (s : Step app.toKit) (c : Connection app.toKit) :
    replay app (s.actions app self c) c = (s.perform app self c).2 := by
  cases s with
  | post object opcode args => exact Connection.replay_post app c object opcode args
  | bind object implementation =>
    show replay app (if object = self then [] else [.bind object implementation]) c =
      (if object = self then (.error (.table (.alreadyBound object)), c)
        else c.bind object implementation : Except Refusal Objects.Handle × Connection app.toKit).2
    by_cases h : object = self
    · rw [if_pos h, if_pos h]
      rfl
    · rw [if_neg h, if_neg h]
      rfl
  | _ => rfl

/-- The actions of a program: those of its steps, as the replies lead from one to the next. -/
def Program.actions {α : Type} : Program app.toKit α → Connection app.toKit → List (Action app.toKit)
  | .done _, _ => []
  | .step s next, c =>
    s.actions app self c ++ (next (s.perform app self c).1).actions (s.perform app self c).2

theorem Program.replay_run {α : Type} (p : Program app.toKit α) (c : Connection app.toKit) :
    replay app (p.actions app self c) c = (p.run app self c).2 := by
  induction p generalizing c with
  | done a => rfl
  | step s next ih =>
    -- both go on with the reply of the step, from the connection after it
    unfold actions run
    rw [replay_append, Step.replay_perform]
    exact ih _ _

end

/-! ## Requests -/

namespace Connection

section
variable (app : Application)

/-- The actions of an implementation that handles a request. -/
def invokeActions (c : Connection app.toKit) (generation : Nat)
    (implementation : Implementation app.Handler) (r : Request) : List (Action app.toKit) :=
  let p := app.respond implementation r
  let ((implementation, result), c') := p.run app r.object c
  p.actions app r.object c ++ .giveBack r.object generation implementation ::
    match result with
    | .ok () => []
    | .error e =>
      (c'.giveBack app r.object generation implementation).postErrorActions app r.object e.code e.text

theorem replay_invoke (c : Connection app.toKit) (generation : Nat)
    (implementation : Implementation app.Handler) (r : Request) :
    replay app (c.invokeActions app generation implementation r) c =
      c.invoke app generation implementation r := by
  unfold invokeActions invoke
  have hrun := Program.replay_run app r.object (app.respond implementation r) c
  cases h : (app.respond implementation r).run app r.object c with
  | mk p c' =>
    obtain ⟨implementation', result⟩ := p
    rw [h] at hrun
    dsimp only at hrun ⊢
    rw [replay_append, hrun, h]
    cases result with
    | ok _ => rfl
    | error e => exact replay_postError app _ r.object e.code e.text

/-- The action that ends the object of a destructor, if it is still there. -/
def endOfLifeActions (c : Connection app.toKit) (id : ObjectId) (generation : Nat) (m : Method) :
    List (Action app.toKit) :=
  if m.destructor ∧ c.isOpen ∧ c.table.isCurrent id generation then [.destroy id] else []

theorem replay_endOfLife (c : Connection app.toKit) (id : ObjectId) (generation : Nat) (m : Method) :
    replay app (c.endOfLifeActions app id generation m) c = c.endOfLife app id generation m := by
  unfold endOfLifeActions endOfLife
  split
  · rfl
  · rfl

/-- The actions of handling a request.  One that fails its checks has none. -/
def dispatchActions (c : Connection app.toKit) (m : Message) : List (Action app.toKit) :=
  match c.accept m with
  | .error _ => []
  | .ok ⟨target, method, c⟩ =>
    -- passing the checks has inserted the new object already
    .insertCreated target.version method.signature.params m.args :: .take m.object ::
      match c.takeImplementation m.object with
      | (some implementation, c) =>
        let r : Request := ⟨m.object, m.opcode, target.version, target.interface, m.args⟩
        c.invokeActions app target.generation implementation r ++
          (c.invoke app target.generation implementation r).endOfLifeActions app m.object
            target.generation method
      | (none, c) =>
        if method.destructor then c.endOfLifeActions app m.object target.generation method else []

/-- A request that passes its checks has inserted what it creates. -/
theorem apply_insertCreated {c : Connection app.toKit} (hopen : c.isOpen) {m : Message}
    {a : Accepted app.toKit} (haccept : c.accept m = .ok a) :
    Action.apply app (.insertCreated a.target.version a.method.signature.params m.args) c = a.connection := by
  unfold Action.apply
  dsimp only
  rw [if_pos hopen, (accept_eq_ok_iff.1 haccept).inserted]

theorem replay_dispatch {c : Connection app.toKit} (hopen : c.isOpen) (m : Message) :
    replay app (c.dispatchActions app m) c = (c.dispatch app m).2 := by
  unfold dispatchActions dispatch
  cases haccept : c.accept m with
  | error v => rfl
  | ok a =>
    have hinsert := apply_insertCreated app hopen haccept
    obtain ⟨target, method, c1⟩ := a
    have htake : Action.apply app (.take m.object) c1 = (c1.takeImplementation m.object).2 := rfl
    dsimp only
    rw [replay, replay, hinsert, htake]
    cases c1.takeImplementation m.object with
    | mk implementation? c2 =>
      cases implementation? with
      | some implementation =>
        dsimp only
        rw [replay_append, replay_invoke, replay_endOfLife]
      | none =>
        dsimp only
        split
        · exact replay_endOfLife app c2 m.object target.generation method
        · rfl

end

end Connection

/-! ## Plain actions -/

/-- Plain actions occur anywhere in an operation, also while the implementation of the object `running`
handles a request.  The others are those of dispatching, which takes implementations out and puts them
back, of withdrawing globals, and of handing over the queue; and no program binds the object on whose
behalf it runs. -/
def Action.IsPlain {K : Kit} (running : Option ObjectId) : Action K → Prop
  | .bind id _ => running ≠ some id
  | .take _ => False
  | .giveBack .. => False
  | .withdraw _ => False
  | .drain => False
  | .drainFds => False
  | _ => True

section
variable (app : Application) (running : Option ObjectId)

namespace Connection

theorem isPlain_of_mem_postActions {c : Connection app.toKit} {id : ObjectId} {opcode : UInt16}
    {args : List Arg} : ∀ a ∈ c.postActions app id opcode args, a.IsPlain running := by
  intro a ha
  unfold postActions at ha
  split at ha
  · cases ha
  · rcases List.mem_cons.1 ha with rfl | ha
    · trivial
    · split at ha
      · rw [List.mem_singleton.1 ha]
        trivial
      · cases ha

theorem isPlain_of_mem_withdrawActions {name : UInt32} {ids : List ObjectId} :
    ∀ {c : Connection app.toKit}, ∀ a ∈ withdrawActions app name ids c, a.IsPlain running := by
  induction ids with
  | nil =>
    intro c a ha
    cases ha
  | cons id ids ih =>
    intro c a ha
    unfold withdrawActions at ha
    rcases List.mem_append.1 ha with ha | ha
    · exact isPlain_of_mem_postActions app running a ha
    · split at ha
      · cases ha
      · exact ih a ha

theorem isPlain_of_mem_failActions {c : Connection app.toKit} {v : Violation} {target : ObjectId} :
    ∀ a ∈ c.failActions app v target, a.IsPlain running := by
  intro a ha
  rcases List.mem_append.1 ha with ha | ha
  · exact isPlain_of_mem_postActions app running a ha
  · rw [List.mem_singleton.1 ha]
    trivial

theorem isPlain_of_mem_endOfLifeActions {c : Connection app.toKit} {id : ObjectId} {generation : Nat}
    {m : Method} : ∀ a ∈ c.endOfLifeActions app id generation m, a.IsPlain running := by
  intro a ha
  unfold endOfLifeActions at ha
  split at ha
  · rw [List.mem_singleton.1 ha]
    trivial
  · cases ha

end Connection

theorem Step.isPlain_of_mem_actions {self : ObjectId} {s : Step app.toKit}
    {c : Connection app.toKit} : ∀ a ∈ s.actions app self c, a.IsPlain (some self) := by
  intro a ha
  cases s with
  | post object opcode args => exact Connection.isPlain_of_mem_postActions app _ a ha
  | bind object implementation =>
    change a ∈ (if object = self then [] else [Action.bind object implementation]) at ha
    split at ha
    · cases ha
    · rename_i hne
      rw [List.mem_singleton.1 ha]
      intro heq
      injection heq with heq
      exact hne heq.symm
  | create interface version =>
    obtain rfl := List.mem_singleton.1 ha
    trivial
  | destroy object =>
    obtain rfl := List.mem_singleton.1 ha
    trivial
  | serial =>
    obtain rfl := List.mem_singleton.1 ha
    trivial
  | close =>
    obtain rfl := List.mem_singleton.1 ha
    trivial
  | record world =>
    obtain rfl := List.mem_singleton.1 ha
    trivial
  | _ => cases ha

/-- A program does nothing but plain actions. -/
theorem Program.isPlain_of_mem_actions {self : ObjectId} {α : Type} (p : Program app.toKit α) :
    ∀ {c : Connection app.toKit}, ∀ a ∈ p.actions app self c, a.IsPlain (some self) := by
  induction p with
  | done result =>
    intro c a ha
    cases ha
  | step s next ih =>
    intro c a ha
    rcases List.mem_append.1 ha with ha | ha
    · exact Step.isPlain_of_mem_actions app a ha
    · exact ih _ a ha

end

end Compositor.Sessions
