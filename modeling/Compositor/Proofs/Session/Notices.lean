import Compositor.Proofs.Session.Implementations

/-
  Every implementation takes note of the end of its object, once.

  Orderly actions keep a tenure in step with the connection (`Matches.orderly`), and so do operations and
  runs.  Between operations no implementation is out, so an object that leaves is dismissed within one
  operation: in the same operation its implementation takes note, and after that nothing befalls the two
  any more (`Dismissed`).  An object that does not leave has an implementation from its installation on
  (`Retained`).  `tenure_of_installed` says that one of the two is so.
-/

namespace Compositor.Sessions

open Compositor.Wire (ObjectId)
open Compositor.Objects (Handle Object Table)
open Compositor.Protocol (Registry)

/-! ## Runs keep tenures in step -/

namespace Matches

section
variable {app : Application} {h : Handle}

/-- Orderly actions keep a tenure in step. -/
theorem orderly {running running' : Option Handle} {as : List (Action app.toKit)}
    {c : Connection app.toKit} (horderly : Orderly app running as c running') :
    ∀ {t : Tenure app.toKit}, Matches h running t c →
      ∃ u, Tenure.Steps h t (episodes app as c) u ∧ Matches h running' u (replay app as c) := by
  induction horderly with
  | nil =>
    intro t hm
    exact hm.exists_of_quiet
  | plain hplain _ ih =>
    intro t hm
    obtain ⟨v, hfirst, hv⟩ := hm.plain hplain
    obtain ⟨u, hrest, hu⟩ := ih hv
    exact ⟨u, hfirst.append hrest, hu⟩
  | @take _ id o i as c hget hbound _ ih =>
    intro t hm
    have hepisodes : Action.episodes app (.take id) c = [.asked ⟨id, o.generation⟩ i] := by
      unfold Action.episodes
      dsimp only
      rw [hget]
      dsimp only
      rw [hbound]
      rfl
    obtain ⟨v, hfirst, hv⟩ := hm.take hget hbound
    obtain ⟨u, hrest, hu⟩ := ih hv
    rw [episodes, hepisodes]
    exact ⟨u, hfirst.append hrest, hu⟩
  | @skip _ id o as c hget hunbound _ ih =>
    intro t hm
    have hepisodes : Action.episodes app (.take id) c = [] := by
      unfold Action.episodes
      dsimp only
      rw [hget]
      dsimp only
      rw [hunbound]
      rfl
    rw [episodes, hepisodes]
    exact ih (hm.skip hget hunbound)
  | giveBack _ ih =>
    intro t hm
    obtain ⟨v, hfirst, hv⟩ := hm.giveBack _
    obtain ⟨u, hrest, hu⟩ := ih hv
    exact ⟨u, hfirst.append hrest, hu⟩
  | withdraw _ _ ih =>
    intro t hm
    exact ih (hm.apply_withdraw _)

/-- Handing over the queue concerns no live object. -/
theorem takeOutbound {K : Kit} {running : Option Handle} {t : Tenure K} {c : Connection K}
    (hm : Matches h running t c) : Matches h running t c.takeOutbound.2 := by
  obtain ⟨hobjects, hgeneration⟩ := Table.acknowledgeAll_keeps c.pendingAcks c.table
  exact hm.of_eq rfl hobjects hgeneration

/-- At any moment of an operation there is a tenure in step. -/
theorem moment {t : Tenure app.toKit} {s : Session app.toKit} (hm : Matches h none t s.connection)
    {op : Operation app.toKit} {as bs : List (Action app.toKit)}
    (heq : op.actions app s = as ++ bs) : ∃ running u,
      Tenure.Steps h t (episodes app as s.connection) u ∧
        Matches h running u (replay app as s.connection) := by
  have hsingle : ∀ a : Action app.toKit, [a] = as ++ bs → a.episodes app s.connection = [] →
      Matches h none t (a.apply app s.connection) → ∃ running u,
        Tenure.Steps h t (episodes app as s.connection) u ∧
          Matches h running u (replay app as s.connection) := by
    intro a ha hquiet hafter
    rcases List.append_eq_singleton_iff.1 ha.symm with ⟨rfl, -⟩ | ⟨rfl, -⟩
    · exact ⟨none, t, .nil, hm⟩
    · refine ⟨none, t, ?_, hafter⟩
      rw [episodes, hquiet]
      exact .nil
  rcases op.orderly_actions app s with rfl | rfl | horderly
  · exact hsingle .drain heq rfl hm.takeOutbound
  · exact hsingle .drainFds heq rfl (hm.of_eq rfl rfl rfl)
  · rw [heq] at horderly
    obtain ⟨running, has, -⟩ := horderly.exists_of_append
    exact ⟨running, orderly has hm⟩

/-- An operation keeps a tenure in step, and leaves no implementation out. -/
theorem perform {t : Tenure app.toKit} {s : Session app.toKit} (hm : Matches h none t s.connection)
    (op : Operation app.toKit) : ∃ u, Tenure.Steps h t (op.episodes app s) u ∧
      Matches h none u (op.perform app s).connection := by
  rcases op.orderly_actions app s with rfl | rfl | horderly
  · exact ⟨t, .nil, hm.takeOutbound⟩
  · exact ⟨t, .nil, hm.of_eq rfl rfl rfl⟩
  · rw [← op.replay_perform]
    exact orderly horderly hm

/-- Operations one after the other keep a tenure in step. -/
theorem performAll (ops : List (Operation app.toKit)) : ∀ {t : Tenure app.toKit}
    {s : Session app.toKit}, Matches h none t s.connection → ∃ u, Tenure.Steps h t (s.tale app ops) u ∧
      Matches h none u (s.performAll app ops).connection := by
  induction ops with
  | nil =>
    intro t s hm
    exact hm.exists_of_quiet
  | cons op ops ih =>
    intro t s hm
    obtain ⟨v, hfirst, hv⟩ := hm.perform op
    obtain ⟨u, hrest, hu⟩ := ih hv
    exact ⟨u, hfirst.append hrest, hu⟩

/-- Between operations an object that has left has no notice overdue. -/
theorem eq_ended {t : Tenure app.toKit} {c : Connection app.toKit} (hm : Matches h none t c)
    (hleft : t.hasLeft) : t = .ended := by
  have hin := hm.not_out nofun
  cases t with
  | ended => rfl
  | parting i => exact absurd rfl (hm.settled i)
  | parted => cases hin
  | _ => cases hleft

/-- An object that has not left stays throughout a run, or leaves during one of its operations. -/
theorem stays_or_leaves (ops : List (Operation app.toKit)) : ∀ {t : Tenure app.toKit}
    {s : Session app.toKit}, Matches h none t s.connection → t.hasLeft = false →
      (∃ u, Tenure.Steps h t (s.tale app ops) u ∧ Matches h none u (s.performAll app ops).connection ∧
        u.hasLeft = false) ∨
      ∃ before op after u, ops = before ++ op :: after ∧ Tenure.Steps h t (s.tale app before) u ∧
        u.hasLeft = false ∧ Tenure.Steps h u (op.episodes app (s.performAll app before)) .ended ∧
          Matches h none .ended (op.perform app (s.performAll app before)).connection := by
  induction ops with
  | nil =>
    intro t s hm hleft
    exact .inl ⟨t, .nil, hm, hleft⟩
  | cons op ops ih =>
    intro t s hm hleft
    obtain ⟨v, hfirst, hv⟩ := hm.perform op
    cases hvleft : v.hasLeft with
    | true =>
      have hended := hv.eq_ended hvleft
      subst hended
      exact .inr ⟨[], op, ops, t, rfl, .nil, hleft, hfirst, hv⟩
    | false =>
      rcases ih hv hvleft with ⟨u, hrest, hu, huleft⟩ | ⟨before, op', after, u, rfl, hbefore, hrest⟩
      · exact .inl ⟨u, hfirst.append hrest, hu, huleft⟩
      · exact .inr ⟨op :: before, op', after, u, rfl, hfirst.append hbefore, hrest⟩

end

end Matches

/-! ## The story of a session -/

namespace Session

/-- The episodes in which a session is opened: the display enters, and has its implementation. -/
def opening {K : Kit} : List (Episode K) :=
  [.entered ⟨.display, 1⟩, .installed ⟨.display, 1⟩ .display]

/-- The episodes of a session from its opening on. -/
def story (app : Application) (s : Session app.toKit) (ops : List (Operation app.toKit)) :
    List (Episode app.toKit) := opening ++ s.tale app ops

end Session

/-- A session is opened with a tenure in step. -/
theorem Matches.new {K : Kit} {client : Nat} {registry : Registry} {globals : Globals K.Binder}
    {limits : Limits} {world : K.World} {s : Session K} (h : Handle)
    (hnew : Session.new client registry globals limits world = .ok s)
    (hroom : 12 ≤ limits.maxMessageSize) :
    s.connection.world = world ∧
      ∃ t, Tenure.Steps h .awaited Session.opening t ∧ t.hasLeft = false ∧
        Matches h none t s.connection := by
  obtain ⟨_, handle, table, -, hinsert, rfl⟩ := Session.exists_of_new hnew
  refine ⟨rfl, ?_⟩
  have hlimit : 12 ≤ min limits.maxMessageSize Wire.maxMessageSize := by
    unfold Wire.maxMessageSize
    omega
  have hascending := Table.ascending_insert (t := Table.empty limits.staleIdCapacity) List.Pairwise.nil hinsert
  have hbehind := Table.behind_insert hinsert h
  obtain ⟨hhandle, hnext⟩ := Table.nextGeneration_insert hinsert
  by_cases heq : h = handle
  · have hdisplay : h = ⟨.display, 1⟩ := heq.trans hhandle
    rw [if_pos heq] at hbehind
    subst hdisplay
    refine ⟨.serving .display, .cons .entered (.single .installed), rfl, hlimit, hascending, ?_,
      ⟨nofun, nofun⟩, nofun, fun _ => ?_⟩
    · show (table.behind _).map _ = _
      rw [hbehind]
      rfl
    · show 1 < table.nextGeneration
      rw [hnext]
      exact Nat.lt_succ_self 1
  · rw [if_neg heq] at hbehind
    have hother : ∀ e ∈ (Session.opening : List (Episode K)), e.handle? ≠ some h := by
      intro e he hsame
      have habout : e.handle? = some ⟨.display, 1⟩ := by
        rcases List.mem_cons.1 he with rfl | he
        · rfl
        · rw [List.mem_singleton.1 he]
          rfl
      rw [habout] at hsame
      injection hsame with hsame
      exact heq (hsame.symm.trans hhandle.symm)
    refine ⟨.awaited, .others hother, rfl, hlimit, hascending, ?_, ⟨nofun, nofun⟩, nofun, fun ht => ?_⟩
    · show (table.behind h).map _ = _
      rw [hbehind]
      rfl
    · exact absurd rfl ht

/-! ## What becomes of an implementation -/

section
variable (app : Application) (h : Handle)

/-- At a moment before which certain episodes have happened: the object is live if it has entered and not
left, and nothing has taken note of its end while it is. -/
def LiveUntilLeft (sofar : List (Episode app.toKit)) (c : Connection app.toKit) : Prop :=
  ((∃ o, c.table.byHandle h = .ok o) ↔ .entered h ∈ sofar ∧ .left h ∉ sofar) ∧
    ((∃ o, c.table.byHandle h = .ok o) → ∀ i, .notified h i ∉ sofar)

/-- After a run the object is live, and has the implementation that was installed or came back last. -/
structure Retained (s : Session app.toKit) (ops : List (Operation app.toKit)) : Prop where
  holds : ∃ o i, (s.performAll app ops).connection.table.byHandle h = .ok o ∧
    o.implementation = some i ∧ (Episode.LastOf h (s.story app ops) (.installed h i) ∨
      Episode.LastOf h (s.story app ops) (.returned h i))
  lasts : ∀ e ∈ s.story app ops, ¬ e.Ends h

/-- During one operation of a run the object leaves and its implementation takes note. -/
structure Dismissed (s : Session app.toKit) (before : List (Operation app.toKit))
    (op : Operation app.toKit) (after : List (Operation app.toKit)) : Prop where
  /-- Until then there is no end of it. -/
  lasts : ∀ e ∈ s.story app before, ¬ e.Ends h
  /-- The object leaves first.  It is the implementation installed or back last that takes note, or the one
  that handles a request just then; and it does so once. -/
  ends : ∃ pre mid i post,
    op.episodes app (s.performAll app before) = pre ++ .left h :: (mid ++ .notified h i :: post) ∧
      (∀ e ∈ pre, ¬ e.Ends h) ∧ (∀ e ∈ mid ++ post, e.handle? ≠ some h) ∧
        (Episode.LastOf h (s.story app before ++ pre) (.installed h i) ∨
          Episode.LastOf h (s.story app before ++ pre) (.returned h i) ∨
            ∃ j, Episode.LastOf h (s.story app before ++ pre) (.asked h j))
  /-- Nothing befalls the two any more: no request, no notice. -/
  silent : ∀ e ∈ (op.perform app (s.performAll app before)).tale app after, e.handle? ≠ some h
  /-- The object does not come back. -/
  gone : ∀ ops rest, after = ops ++ rest →
    ∀ o, (s.performAll app (before ++ op :: ops)).connection.table.byHandle h ≠ .ok o

end

section
variable {app : Application} {h : Handle}

/-- A tenure in step says which objects are live. -/
theorem Matches.byHandle_iff {running : Option Handle} {t : Tenure app.toKit} {c : Connection app.toKit}
    (hm : Matches h running t c) : (∃ o, c.table.byHandle h = .ok o) ↔ t.held.isSome := by
  rw [← hm.held, Option.isSome_map, Option.isSome_iff_exists]
  constructor
  · rintro ⟨o, ho⟩
    exact ⟨o, Table.byHandle_eq_ok_iff.1 ho⟩
  · rintro ⟨o, ho⟩
    exact ⟨o, Table.byHandle_eq_ok_iff.2 ho⟩

theorem Matches.liveUntilLeft {running : Option Handle} {t : Tenure app.toKit}
    {c : Connection app.toKit} (hm : Matches h running t c) {es : List (Episode app.toKit)}
    (hsteps : Tenure.Steps h .awaited es t) : LiveUntilLeft app h es c := by
  refine ⟨?_, fun hlive i hi => ?_⟩
  · rw [hm.byHandle_iff, hsteps.held_iff]
    refine and_congr_left fun _ => ⟨?_, fun hentered => .inr ⟨rfl, hentered⟩⟩
    rintro (hheld | ⟨-, hentered⟩)
    · cases hheld
    · exact hentered
  · have hheld := hm.byHandle_iff.1 hlive
    have hleft : t.hasLeft = false := by
      cases t with
      | parting i => cases hheld
      | parted => cases hheld
      | ended => cases hheld
      | _ => rfl
    exact hsteps.not_ends hleft _ hi (.inr ⟨i, rfl⟩)

/-- Where an installed implementation is when its object has not left and no request is handled. -/
theorem Tenure.Steps.exists_serving {es : List (Episode app.toKit)} {t : Tenure app.toKit}
    {i : Implementation app.Handler} (hsteps : Tenure.Steps h .awaited es t)
    (hinstalled : .installed h i ∈ es) (hleft : t.hasLeft = false) :
    (∃ j, t = .serving j ∧
      (Episode.LastOf h es (.installed h j) ∨ Episode.LastOf h es (.returned h j))) ∨
      t = .busy ∧ ∃ j, Episode.LastOf h es (.asked h j) := by
  have hserved : t.isUnserved = false := by
    cases hunserved : t.isUnserved with
    | false => rfl
    | true => exact absurd hinstalled ((hsteps.not_installed_of_isUnserved hunserved).2 i)
  cases t with
  | serving j =>
    rcases hsteps.last_of_serving with ⟨hnone, -⟩ | hlast
    · cases hnone
    · exact .inl ⟨j, rfl, hlast⟩
  | busy =>
    rcases hsteps.last_of_busy with ⟨hnone, -⟩ | hlast
    · cases hnone
    · exact .inr ⟨rfl, hlast⟩
  | awaited => cases hserved
  | vacant => cases hserved
  | _ => cases hleft

/-- An object with an implementation that leaves during an operation is dismissed by it. -/
theorem dismissed_of_steps {s : Session app.toKit} {before : List (Operation app.toKit)}
    {op : Operation app.toKit} {after : List (Operation app.toKit)} {t : Tenure app.toKit}
    {i : Implementation app.Handler} (hbefore : Tenure.Steps h .awaited (s.story app before) t)
    (hleft : t.hasLeft = false)
    (hop : Tenure.Steps h t (op.episodes app (s.performAll app before)) .ended)
    (hm : Matches h none .ended (op.perform app (s.performAll app before)).connection)
    (hinstalled : .installed h i ∈ s.story app (before ++ op :: after)) :
    Dismissed app h s before op after := by
  obtain ⟨pre, rest, v, w, hsplit, hpre, hvleft, hdeparture, hrest⟩ := hop.exists_departure hleft rfl
  obtain ⟨u, hafter, -⟩ := Matches.performAll after hm
  obtain ⟨rfl, hsilent⟩ := hafter.of_ended
  -- the installation is before the object leaves
  have hstory := hbefore.append hpre
  have hearly : .installed h i ∈ s.story app before ++ pre := by
    have hwleft : w.isUnserved = false := by
      cases hdeparture with
      | other hother => exact absurd rfl hother
      | left_vacant => rfl
      | left_serving => rfl
      | left_busy => rfl
    have hlate := ((hrest.append hafter).not_installed_of_served hwleft).2 i
    have hall : s.story app (before ++ op :: after) = (s.story app before ++ pre) ++
        .left h :: (rest ++ (op.perform app (s.performAll app before)).tale app after) := by
      unfold Session.story
      rw [Session.tale_append, Session.tale, hsplit]
      simp only [List.append_assoc, List.cons_append]
    rw [hall] at hinstalled
    rcases List.mem_append.1 hinstalled with hin | hin
    · exact hin
    · rcases List.mem_cons.1 hin with heq | hin
      · cases heq
      · exact absurd hin hlate
  have hgone : ∀ ops' rest, after = ops' ++ rest →
      ∀ o, (s.performAll app (before ++ op :: ops')).connection.table.byHandle h ≠ .ok o := by
    intro ops' rest' _ o ho
    obtain ⟨u, hsteps, hu⟩ := Matches.performAll ops' hm
    obtain ⟨rfl, -⟩ := hsteps.of_ended
    rw [Session.performAll_append] at ho
    cases hu.byHandle_iff.1 ⟨o, ho⟩
  have hends := hpre.not_ends hvleft
  have hlasts := hbefore.not_ends hleft
  rcases hstory.exists_serving hearly hvleft with ⟨j, rfl, hlast⟩ | ⟨rfl, hlast⟩
  · cases hdeparture with
    | other hother => exact absurd rfl hother
    | left_serving =>
      obtain ⟨mid, k, post, rfl, hmid, hsame⟩ := hrest.notified_once rfl nofun
      obtain rfl := hsame j rfl
      refine ⟨hlasts, ⟨pre, mid, k, post, hsplit, hends, hmid, ?_⟩, hsilent, hgone⟩
      exact hlast.imp_right .inl
  · cases hdeparture with
    | other hother => exact absurd rfl hother
    | left_busy =>
      obtain ⟨mid, k, post, rfl, hmid, -⟩ := hrest.notified_once rfl nofun
      exact ⟨hlasts, ⟨pre, mid, k, post, hsplit, hends, hmid, .inr (.inr hlast)⟩, hsilent, hgone⟩

/-- An implementation that is installed on an object, in any run of a session: it is the only one that the
object is given.  At every moment the object is live until it leaves, and no notice of its end comes before.
In the end, either the object is live and has its implementation; or one operation has dismissed it.  The
world shows that a notice is just what is made of it. -/
theorem tenure_of_installed {client : Nat} {registry : Registry} {globals : Globals app.Binder}
    {limits : Limits} {world : app.World} {s : Session app.toKit}
    (hnew : Session.new client registry globals limits world = .ok s)
    (hroom : 12 ≤ limits.maxMessageSize) (ops : List (Operation app.toKit))
    {i : Implementation app.Handler} (hinstalled : .installed h i ∈ s.story app ops) :
    (s.performAll app ops).connection.world = (s.story app ops).foldl (Episode.act app) world ∧
    (∀ before after, s.story app ops = before ++ .installed h i :: after →
      ∀ j, .installed h j ∉ before ++ after) ∧
    (∀ before op after as bs, ops = before ++ op :: after →
      op.actions app (s.performAll app before) = as ++ bs →
        LiveUntilLeft app h
          (s.story app before ++ episodes app as (s.performAll app before).connection)
          (replay app as (s.performAll app before).connection)) ∧
    (Retained app h s ops ∨
      ∃ before op after, ops = before ++ op :: after ∧ Dismissed app h s before op after) := by
  obtain ⟨hworld, t, hopening, hleft, hm⟩ := Matches.new h hnew hroom
  refine ⟨?_, ?_, ?_, ?_⟩
  · rw [Session.world_performAll, hworld]
    rfl
  · intro before after hsplit j hj
    obtain ⟨u, hrun, -⟩ := hm.performAll ops
    have hstory := hopening.append hrun
    rw [show Session.opening ++ s.tale app ops = before ++ .installed h i :: after from hsplit] at hstory
    obtain ⟨v, hbefore, hafter⟩ := hstory.exists_of_append
    -- the step of the installation is from an object without one to an object with one
    cases hafter with
    | cons hstep hafter =>
      cases hstep with
      | other hother => exact hother rfl
      | installed =>
        rcases List.mem_append.1 hj with hj | hj
        · exact (hbefore.not_installed_of_isUnserved rfl).2 j hj
        · exact (hafter.not_installed_of_served rfl).2 j hj
  · intro before op after as bs _ hactions
    obtain ⟨u, hbefore, hu⟩ := hm.performAll before
    obtain ⟨running, v, hmoment, hv⟩ := hu.moment hactions
    exact hv.liveUntilLeft ((hopening.append hbefore).append hmoment)
  · rcases hm.stays_or_leaves ops hleft with
      ⟨u, hrun, hu, huleft⟩ | ⟨before, op, after, u, rfl, hbefore, huleft, hop, hended⟩
    · left
      have hstory := hopening.append hrun
      refine ⟨?_, hstory.not_ends huleft⟩
      rcases hstory.exists_serving hinstalled huleft with ⟨j, rfl, hlast⟩ | ⟨rfl, -⟩
      · obtain ⟨o, ho⟩ := hu.byHandle_iff.2 rfl
        refine ⟨o, j, ho, ?_, hlast⟩
        have hheld := hu.held
        rw [Table.byHandle_eq_ok_iff.1 ho] at hheld
        injection hheld
      · cases hu.not_out nofun
    · exact .inr ⟨before, op, after, rfl,
        dismissed_of_steps (hopening.append hbefore) huleft hop hended hinstalled⟩

end

theorem tenure_of_installed_sample : ∃ before op after, quittingRun = before ++ op :: after ∧
    Dismissed .quitting ⟨quitterId, 2⟩ Session.quitting before op after := by
  have hinstalled : .installed ⟨quitterId, 2⟩ (.application ()) ∈
      Session.quitting.story .quitting quittingRun := by
    have hstory : Session.quitting.story .quitting quittingRun =
      [.entered ⟨.display, 1⟩, .installed ⟨.display, 1⟩ .display, .entered ⟨quitterId, 2⟩,
        .installed ⟨quitterId, 2⟩ (.application ()), .entered ⟨⟨3, by decide⟩, 3⟩,
        .asked ⟨quitterId, 2⟩ (.application ()), .left ⟨quitterId, 2⟩, .left ⟨⟨3, by decide⟩, 3⟩,
        .left ⟨.display, 1⟩, .notified ⟨.display, 1⟩ .display,
        .notified ⟨quitterId, 2⟩ (.application ())] := rfl
    rw [hstory]
    simp
  obtain ⟨-, -, -, hretained | hdismissed⟩ :=
    tenure_of_installed Session.new_quitting (by decide) quittingRun hinstalled
  · obtain ⟨o, i, hlive, -⟩ := hretained.holds
    have hgone : (Session.quitting.performAll .quitting quittingRun).connection.table.byHandle
        ⟨quitterId, 2⟩ = .error (.stale quitterId) := rfl
    rw [hgone] at hlive
    cases hlive
  · exact hdismissed

end Compositor.Sessions
