import Compositor.Proofs.Session.Actions

/-
  What scripts do.

  A program that goes on with what another one results in does the actions of both, one after the other
  (`Program.actions_andThen`).  `Program.Does` says what a program comes to from where it starts, and there is
  one lemma for each of the operations that scripts are made of.

  The display answers a request by events of the one object that the request creates, and by no others
  (`queuesFor_displayRequest`).  How many these are depends on whether they can be queued.
-/

namespace Compositor.Sessions

open Compositor.Wire (Arg ObjectId)
open Compositor.Objects (Handle)
open Compositor.Protocol

/-! ## Events -/

/-- An event that can be encoded and is no destructor is queued, and that is all. -/
theorem Connection.post_of_encodeEvent (app : Application) {c : Connection app.toKit} {id : ObjectId}
    {opcode : UInt16} {args : List Arg} {m : Method} {outbound : Wire.Outbox}
    (hencode : c.encodeEvent id opcode args = .ok (m, outbound)) (hstays : m.destructor = false) :
    c.post app id opcode args = (.ok (), { c with outbound }) ∧
      c.postActions app id opcode args = [.queue id opcode args] := by
  unfold post postActions
  rw [hencode]
  dsimp only
  rw [hstays]
  exact ⟨rfl, rfl⟩

/-! ## One program after the other -/

section
variable {app : Application} {owner : ObjectId} {α β : Type}

theorem Program.run_andThen (p : Program app.toKit α) (f : α → Program app.toKit β) :
    ∀ c : Connection app.toKit, (p.andThen f).run app owner c =
      (f (p.run app owner c).1).run app owner (p.run app owner c).2 := by
  induction p with
  | done a =>
    intro c
    rfl
  | step s next ih =>
    intro c
    exact ih _ _

theorem Program.actions_andThen (p : Program app.toKit α) (f : α → Program app.toKit β) :
    ∀ c : Connection app.toKit, (p.andThen f).actions app owner c =
      p.actions app owner c ++ (f (p.run app owner c).1).actions app owner (p.run app owner c).2 := by
  induction p with
  | done a =>
    intro c
    rfl
  | step s next ih =>
    intro c
    show s.actions app owner c ++ ((next _).andThen f).actions app owner _ = _
    rw [ih, ← List.append_assoc]
    rfl

/-! ## What a program comes to -/

/-- What a program does on a connection: its actions, what it results in, and the connection after it. -/
structure Program.Does (owner : ObjectId) (p : Program app.toKit α) (c : Connection app.toKit)
    (as : List (Action app.toKit)) (a : α) (c' : Connection app.toKit) : Prop where
  actions_eq : p.actions app owner c = as
  run_eq : p.run app owner c = (a, c')

theorem Program.Does.replay_eq {p : Program app.toKit α} {c c' : Connection app.toKit}
    {as : List (Action app.toKit)} {a : α} (hp : p.Does owner c as a c') : replay app as c = c' := by
  rw [← hp.actions_eq, replay_run, hp.run_eq]

theorem Program.Does.andThen {p : Program app.toKit α} {f : α → Program app.toKit β}
    {c c' c'' : Connection app.toKit} {as bs : List (Action app.toKit)} {a : α} {b : β}
    (hp : p.Does owner c as a c') (hf : (f a).Does owner c' bs b c'') :
    (p.andThen f).Does owner c (as ++ bs) b c'' where
  actions_eq := by
    rw [actions_andThen, hp.run_eq, hp.actions_eq, hf.actions_eq]
  run_eq := by
    rw [run_andThen, hp.run_eq, hf.run_eq]

theorem Program.Does.ofStep {s : Step app.toKit} {c c' : Connection app.toKit}
    {as : List (Action app.toKit)} {reply : s.Reply} (hactions : s.actions app owner c = as)
    (hperform : s.perform app owner c = (reply, c')) : (Program.ofStep s).Does owner c as reply c' where
  actions_eq := (List.append_nil _).trans hactions
  run_eq := hperform

namespace Script

variable {c c' c'' : Connection app.toKit}

/-- A script goes on with the value of another one. -/
theorem does_bind {x : Script app.toKit α} {f : α → Script app.toKit β} {as bs : List (Action app.toKit)}
    {a : α} {b : Except AppError β} (hx : x.run.Does owner c as (.ok a) c')
    (hf : (f a).run.Does owner c' bs b c'') : (x >>= f).run.Does owner c (as ++ bs) b c'' :=
  Program.Does.andThen (f := ExceptT.bindCont f) hx hf

/-- A script ends with the error of another one. -/
theorem does_bind_error {x : Script app.toKit α} {f : α → Script app.toKit β}
    {as : List (Action app.toKit)} {e : AppError} (hx : x.run.Does owner c as (.error e) c') :
    (x >>= f).run.Does owner c as (.error e) c' := by
  have hdoes : (x >>= f).run.Does owner c (as ++ []) (.error e) c' :=
    Program.Does.andThen (f := ExceptT.bindCont f) hx ⟨rfl, rfl⟩
  rw [List.append_nil] at hdoes
  exact hdoes

theorem does_throw (e : AppError) (c : Connection app.toKit) :
    (throw e : Script app.toKit α).run.Does owner c [] (.error e) c := ⟨rfl, rfl⟩

theorem does_pure (a : α) (c : Connection app.toKit) :
    (pure a : Script app.toKit α).run.Does owner c [] (.ok a) c := ⟨rfl, rfl⟩

theorem does_ofExcept (x : Except AppError α) (c : Connection app.toKit) :
    (ofExcept x : Script app.toKit α).run.Does owner c [] x c := ⟨rfl, rfl⟩

theorem does_globals (c : Connection app.toKit) :
    (globals : Script app.toKit (Globals app.Binder)).run.Does owner c [] (.ok c.globals) c := ⟨rfl, rfl⟩

/-- The reply to a step that is not refused is what the script goes on with. -/
theorem does_attempt {p : Program app.toKit (Except Refusal α)} {as : List (Action app.toKit)} {a : α}
    (hp : p.Does owner c as (.ok a) c') : (attempt p).run.Does owner c as (.ok a) c' := by
  have hdoes : (attempt p).run.Does owner c (as ++ []) (.ok a) c' := Program.Does.andThen hp ⟨rfl, rfl⟩
  rw [List.append_nil] at hdoes
  exact hdoes

/-- A refusal is the error that the script ends with. -/
theorem does_attempt_error {p : Program app.toKit (Except Refusal α)} {as : List (Action app.toKit)}
    {e : Refusal} (hp : p.Does owner c as (.error e) c') :
    (attempt p).run.Does owner c as (.error (.ofRefusal e)) c' := by
  have hdoes : (attempt p).run.Does owner c (as ++ []) (.error (.ofRefusal e)) c' :=
    Program.Does.andThen hp ⟨rfl, rfl⟩
  rw [List.append_nil] at hdoes
  exact hdoes

/-- An implementation is installed on an object that has none. -/
theorem does_install {id : ObjectId} {i : Implementation app.Handler} {h : Handle} (howner : id ≠ owner)
    (hbind : c.bind id i = (.ok h, c')) :
    (Script.bind id i : Script app.toKit Handle).run.Does owner c [.bind id i] (.ok h) c' := by
  have hperform : Step.perform app owner (.bind id i) c = (.ok h, c') := (if_neg howner).trans hbind
  exact does_attempt (.ofStep (if_neg howner) hperform)

/-- An implementation that cannot be installed ends the script. -/
theorem does_install_error {id : ObjectId} {i : Implementation app.Handler} {e : Refusal}
    (howner : id ≠ owner) (hbind : c.bind id i = (.error e, c')) :
    (Script.bind id i : Script app.toKit Handle).run.Does owner c [.bind id i] (.error (.ofRefusal e)) c' := by
  have hperform : Step.perform app owner (.bind id i) c = (.error e, c') := (if_neg howner).trans hbind
  exact does_attempt_error (.ofStep (if_neg howner) hperform)

/-- An object is destroyed. -/
theorem does_destroy {id : ObjectId} (hdestroy : c.destroy app id = (.ok (), c')) :
    (Script.destroy id : Script app.toKit Unit).run.Does owner c [.destroy id] (.ok ()) c' := by
  have hperform : Step.perform app owner (.destroy id) c = (.ok (), c') := hdestroy
  exact does_attempt (.ofStep rfl hperform)

/-- An event is queued that is no destructor. -/
theorem does_post {id : ObjectId} {opcode : UInt16} {args : List Arg} {m : Method} {outbound : Wire.Outbox}
    (hencode : c.encodeEvent id opcode args = .ok (m, outbound)) (hstays : m.destructor = false) :
    (Script.post id opcode args : Script app.toKit Unit).run.Does owner c [.queue id opcode args] (.ok ())
      { c with outbound } := by
  obtain ⟨hpost, hactions⟩ := Connection.post_of_encodeEvent app hencode hstays
  have hperform : Step.perform app owner (.post id opcode args) c = (.ok (), { c with outbound }) := hpost
  exact does_attempt (.ofStep hactions hperform)

end Script

/-! ## What the display queues -/

/-- An action queues nothing but events of one object. -/
def Action.QueuesFor {K : Kit} (id : ObjectId) : Action K → Prop
  | .queue other _ _ => other = id
  | _ => True

theorem Connection.queuesFor_of_mem_postActions {c : Connection app.toKit} {id : ObjectId} {opcode : UInt16}
    {args : List Arg} : ∀ a ∈ c.postActions app id opcode args, a.QueuesFor id := by
  intro a ha
  unfold postActions at ha
  split at ha
  · cases ha
  · rcases List.mem_cons.1 ha with rfl | ha
    · rfl
    · split at ha
      · rw [List.mem_singleton.1 ha]
        trivial
      · cases ha

/-- So do all actions of a program, wherever it starts. -/
def Program.QueuesFor (owner id : ObjectId) (p : Program app.toKit α) : Prop :=
  ∀ c, ∀ a ∈ p.actions app owner c, a.QueuesFor id

variable {id : ObjectId}

theorem Program.QueuesFor.andThen {p : Program app.toKit α} {f : α → Program app.toKit β}
    (hp : p.QueuesFor owner id) (hf : ∀ a, (f a).QueuesFor owner id) : (p.andThen f).QueuesFor owner id := by
  intro c a ha
  rw [actions_andThen] at ha
  rcases List.mem_append.1 ha with ha | ha
  · exact hp c a ha
  · exact hf _ _ a ha

theorem Program.QueuesFor.done (a : α) : (.done a : Program app.toKit α).QueuesFor owner id := by
  intro c b hb
  cases hb

/-- The only step that queues anything is a post. -/
theorem Program.QueuesFor.ofStep {s : Step app.toKit}
    (hs : ∀ other opcode args, s = .post other opcode args → other = id) :
    (Program.ofStep s).QueuesFor owner id := by
  intro c a ha
  rw [show (Program.ofStep s).actions app owner c = s.actions app owner c ++ [] from rfl,
    List.append_nil] at ha
  cases s with
  | post other opcode args =>
    have hother : other = id := hs other opcode args rfl
    rw [← hother]
    exact Connection.queuesFor_of_mem_postActions a ha
  | bind object i =>
    change a ∈ (if object = owner then [] else [Action.bind object i]) at ha
    split at ha
    · cases ha
    · rw [List.mem_singleton.1 ha]
      trivial
  | create interface version =>
    rw [List.mem_singleton.1 ha]
    trivial
  | destroy object =>
    rw [List.mem_singleton.1 ha]
    trivial
  | serial =>
    rw [List.mem_singleton.1 ha]
    trivial
  | close =>
    rw [List.mem_singleton.1 ha]
    trivial
  | record world =>
    rw [List.mem_singleton.1 ha]
    trivial
  | _ => cases ha

namespace Script

theorem queuesFor_bind {x : Script app.toKit α} {f : α → Script app.toKit β}
    (hx : x.run.QueuesFor owner id) (hf : ∀ a, (f a).run.QueuesFor owner id) :
    (x >>= f).run.QueuesFor owner id := by
  refine Program.QueuesFor.andThen (f := ExceptT.bindCont f) hx fun r => ?_
  cases r with
  | ok a => exact hf a
  | error e => exact .done _

theorem queuesFor_given {a : α} {f : α → Script app.toKit β} (hf : (f a).run.QueuesFor owner id) :
    (ofExcept (.ok a) >>= f).run.QueuesFor owner id := hf

theorem queuesFor_attempt {p : Program app.toKit (Except Refusal α)} (hp : p.QueuesFor owner id) :
    (attempt p).run.QueuesFor owner id := by
  refine Program.QueuesFor.andThen hp fun r => ?_
  cases r with
  | ok a => exact .done _
  | error e => exact .done _

theorem queuesFor_perform {s : Step app.toKit} (hs : ∀ other opcode args, s ≠ .post other opcode args) :
    (perform s).run.QueuesFor owner id :=
  Program.QueuesFor.andThen (.ofStep fun other opcode args heq => absurd heq (hs other opcode args))
    fun _ => .done _

theorem queuesFor_post (opcode : UInt16) (args : List Arg) :
    (Script.post id opcode args : Script app.toKit Unit).run.QueuesFor owner id := by
  refine queuesFor_attempt (.ofStep fun other opcode' args' heq => ?_)
  injection heq with hid
  exact hid.symm

end Script

theorem queuesFor_advertise (gs : List (Global app.Binder)) :
    (advertise id gs : Script app.toKit Unit).run.QueuesFor owner id := by
  induction gs with
  | nil => exact .done _
  | cons g gs ih => exact Script.queuesFor_bind (Script.queuesFor_post _ _) fun _ => ih

/-- What the display queues for a request are events of the new object. -/
theorem queuesFor_displayRequest {r : Request} (hid : r.newId 0 = .ok id) :
    (displayRequest r : Script app.toKit Unit).run.QueuesFor owner id := by
  unfold displayRequest
  rw [hid]
  split
  · refine Script.queuesFor_given ?_
    refine Script.queuesFor_bind (Script.queuesFor_perform (s := .serial) fun _ _ _ => nofun) fun serial => ?_
    exact Script.queuesFor_post _ _
  · split
    · refine Script.queuesFor_given ?_
      refine Script.queuesFor_bind ?_ fun h => ?_
      · exact Script.queuesFor_attempt (.ofStep (s := .bind id .registry) fun _ _ _ => nofun)
      · refine Script.queuesFor_bind (Script.queuesFor_perform (s := .globals) fun _ _ _ => nofun) ?_
        exact fun globals => queuesFor_advertise _
    · exact .done _

end

end Compositor.Sessions
