import Compositor.Proofs.Session.Orderly
import Compositor.Proofs.Session.Tenure

/-
  Implementations from their installation to the notice of their end.

  `Matches` ties a tenure to a connection: what the table holds behind the handle, and whether the
  implementation is out.  Every action keeps the two in step (`Matches.plain` and the lemmas for taking
  out and putting back), so orderly actions do, and so does every run (`Matches.performAll`).  The rest
  follows from what tenures are like: `tenure_of_installed` says what becomes of an implementation that is
  installed on an object.

  Announcing a deletion must have room, or else a destruction stops halfway: its object has left, and no
  one takes note.
-/

namespace Compositor.Sessions

open Compositor.Wire (ObjectId Outbox)
open Compositor.Objects (Handle Object Table)
open Compositor.Protocol (Registry)

/-! ## Tenures and connections -/

/-- Is the implementation out? -/
def Tenure.isOut {K : Kit} : Tenure K → Bool
  | .busy => true
  | .parted => true
  | _ => false

/-- A tenure that is in step with a connection, while the implementation of the object behind `running` is
out. -/
structure Matches {K : Kit} (h : Handle) (running : Option Handle) (t : Tenure K) (c : Connection K) :
    Prop where
  room : 12 ≤ c.outbound.limit
  ascending : c.table.objects.Ascending
  held : (c.table.behind h).map (·.implementation) = t.held
  out : running = some h ↔ t.isOut
  /-- No notice is overdue. -/
  settled : ∀ i, t ≠ .parting i
  /-- Handles are handed out once. -/
  handed : t ≠ .awaited → h.generation < c.table.nextGeneration

namespace Tenure

variable {K : Kit} {h : Handle} {t : Tenure K}

/-- An object that is live can leave, and its implementation takes note at once unless it is out. -/
theorem exists_leaving {implementation : Option (Implementation K.Handler)}
    (hheld : t.held = some implementation) :
    ∃ v u, Step h t (.left h) v ∧ Steps h v (implementation.toList.map (.notified h)) u ∧
      u.held = none ∧ u.isOut = t.isOut ∧ (∀ i, u ≠ .parting i) ∧ t ≠ .awaited := by
  cases t with
  | vacant =>
    injection hheld with hheld
    subst hheld
    exact ⟨_, _, .left_vacant, .nil, rfl, rfl, nofun, nofun⟩
  | serving i =>
    injection hheld with hheld
    subst hheld
    exact ⟨_, _, .left_serving, .single .notified_parting, rfl, rfl, nofun, nofun⟩
  | busy =>
    injection hheld with hheld
    subst hheld
    exact ⟨_, _, .left_busy, .nil, rfl, rfl, nofun, nofun⟩
  | _ => cases hheld

/-- What leaves is no other object. -/
theorem others_of_ne {e : ObjectId × Object (Implementation K.Handler)} (hne : h ≠ ⟨e.1, e.2.generation⟩) :
    ∀ e' ∈ Episode.departure e :: Episode.notices e, e'.handle? ≠ some h := by
  refine List.forall_mem_cons.2 ⟨fun heq => ?_, fun e' he' heq => ?_⟩
  · injection heq with heq
    exact hne heq.symm
  · obtain ⟨i, -, rfl⟩ := List.mem_map.1 he'
    injection heq with heq
    exact hne heq.symm

end Tenure

namespace Matches

section
variable {K : Kit} {h : Handle} {running : Option Handle} {t : Tenure K} {c c' : Connection K}

/-- A tenure is about the objects of the connection only. -/
theorem of_eq (hm : Matches h running t c) (hlimit : c'.outbound.limit = c.outbound.limit)
    (hobjects : c'.table.objects = c.table.objects)
    (hgeneration : c'.table.nextGeneration = c.table.nextGeneration) : Matches h running t c' := by
  refine ⟨?_, ?_, ?_, hm.out, hm.settled, ?_⟩
  · rw [hlimit]
    exact hm.room
  · rw [hobjects]
    exact hm.ascending
  · have hheld := hm.held
    unfold Table.behind at hheld ⊢
    rw [hobjects]
    exact hheld
  · rw [hgeneration]
    exact hm.handed

/-! ### Objects -/

/-- An object enters. -/
theorem insert (hm : Matches h running t c) {side : Wire.Side} {id : ObjectId}
    {o : Object (Implementation K.Handler)} {handle : Handle}
    {table : Table (Implementation K.Handler)} (hunbound : o.implementation = none)
    (hinsert : c.table.insert side id o = .ok (handle, table)) :
    ∃ u, Tenure.Steps h t [.entered handle] u ∧ Matches h running u { c with table } := by
  have hascending := Table.ascending_insert hm.ascending hinsert
  have hbehind := Table.behind_insert hinsert h
  obtain ⟨hhandle, hnext⟩ := Table.nextGeneration_insert hinsert
  by_cases heq : h = handle
  · -- its handle is a new one
    have hawaited : t = .awaited := by
      cases t with
      | awaited => rfl
      | _ =>
        have hlt := hm.handed nofun
        rw [heq, hhandle] at hlt
        exact absurd hlt (Nat.lt_irrefl _)
    subst hawaited
    rw [if_pos heq] at hbehind
    refine ⟨.vacant, .single (heq ▸ .entered), hm.room, hascending, ?_, hm.out, nofun, fun _ => ?_⟩
    · show (table.behind h).map _ = _
      rw [hbehind, Option.map_some, hunbound]
      rfl
    · show h.generation < table.nextGeneration
      rw [heq, hhandle, hnext]
      exact Nat.lt_succ_self _
  · rw [if_neg heq] at hbehind
    refine ⟨t, .single (.other fun hsame => ?_), hm.room, hascending, ?_, hm.out, hm.settled,
      fun ht => ?_⟩
    · injection hsame with hsame
      exact heq hsame.symm
    · show (table.behind h).map _ = _
      rw [hbehind]
      exact hm.held
    · show h.generation < table.nextGeneration
      rw [hnext]
      exact Nat.lt_succ_of_lt (hm.handed ht)

/-- An object leaves. -/
theorem remove (hm : Matches h running t c) {id : ObjectId} {o : Object (Implementation K.Handler)}
    {table : Table (Implementation K.Handler)} (hremove : c.table.remove id = .ok (o, table)) :
    ∃ u, Tenure.Steps h t (.departure (id, o) :: Episode.notices (id, o)) u ∧
      Matches h running u { c with table } := by
  have hascending := Table.ascending_remove hm.ascending hremove
  have hbehind := Table.behind_remove hremove h
  obtain ⟨hlive, -, hnext⟩ := Table.objects_remove hremove
  by_cases heq : h = ⟨id, o.generation⟩
  · have hheld := hm.held
    rw [heq, Table.behind_eq_some_iff.2 ⟨hlive, rfl⟩] at hheld
    obtain ⟨v, u, hleft, hnoted, hnone, hout, hsettled, hhere⟩ :=
      Tenure.exists_leaving (h := h) hheld.symm
    rw [if_pos heq] at hbehind
    refine ⟨u, .cons (u := v) ?_ ?_, hm.room, hascending, ?_, ?_, hsettled, fun _ => ?_⟩
    · unfold Episode.departure
      rw [← heq]
      exact hleft
    · unfold Episode.notices
      rw [← heq]
      exact hnoted
    · show (table.behind h).map _ = _
      rw [hbehind, hnone]
      rfl
    · rw [hout]
      exact hm.out
    · show h.generation < table.nextGeneration
      rw [hnext]
      exact hm.handed hhere
  · rw [if_neg heq] at hbehind
    refine ⟨t, .others (Tenure.others_of_ne heq), hm.room, hascending, ?_, hm.out, hm.settled, ?_⟩
    · show (table.behind h).map _ = _
      rw [hbehind]
      exact hm.held
    · show _ → h.generation < table.nextGeneration
      rw [hnext]
      exact hm.handed

/-- All objects leave, one after the other, and then the implementations take note. -/
theorem removeAll (hm : Matches h running t c) : ∃ u, Tenure.Steps h t
    (c.table.objects.reverse.map .departure ++ c.table.objects.reverse.flatMap Episode.notices) u ∧
      u.held = none ∧ u.isOut = t.isOut ∧ (∀ i, u ≠ .parting i) ∧ (u ≠ .awaited → t ≠ .awaited) := by
  cases hbehind : c.table.behind h with
  | none =>
    have hothers : ∀ e ∈ c.table.objects, ∀ e' ∈ Episode.departure e :: Episode.notices e,
        e'.handle? ≠ some h := by
      intro e he
      refine Tenure.others_of_ne fun heq => ?_
      have hlive := Objects.Directory.get?_of_mem hm.ascending he
      rw [heq, Table.behind_eq_some_iff.2 ⟨hlive, rfl⟩] at hbehind
      cases hbehind
    have hheld := hm.held
    rw [hbehind] at hheld
    refine ⟨t, .others fun e' he' => ?_, hheld.symm, rfl, hm.settled, id⟩
    rcases List.mem_append.1 he' with he' | he'
    · obtain ⟨e, he, rfl⟩ := List.mem_map.1 he'
      exact hothers e (List.mem_reverse.1 he) _ (List.mem_cons_self ..)
    · obtain ⟨e, he, he'⟩ := List.mem_flatMap.1 he'
      exact hothers e (List.mem_reverse.1 he) _ (List.mem_cons_of_mem _ he')
  | some o =>
    -- around the object behind the handle there are only others
    obtain ⟨hlive, hgeneration⟩ := Table.behind_eq_some_iff.1 hbehind
    obtain ⟨before, after, heq, hids⟩ := Objects.Directory.exists_split hm.ascending hlive
    have hothers : ∀ e ∈ before ++ after, ∀ e' ∈ Episode.departure e :: Episode.notices e,
        e'.handle? ≠ some h :=
      fun e he => Tenure.others_of_ne fun hsame => hids e he (congrArg Handle.id hsame).symm
    have hhandle : (⟨h.id, o.generation⟩ : Handle) = h := by rw [hgeneration]
    have hheld := hm.held
    rw [hbehind] at hheld
    obtain ⟨v, u, hleft, hnoted, hnone, hout, hsettled, hhere⟩ :=
      Tenure.exists_leaving (h := h) hheld.symm
    refine ⟨u, ?_, hnone, hout, hsettled, fun _ => hhere⟩
    rw [heq]
    simp only [List.reverse_append, List.reverse_cons, List.map_append, List.map_cons, List.map_nil,
      List.flatMap_append, List.flatMap_cons, List.flatMap_nil, List.append_nil]
    have hdepartures : ∀ es : List (ObjectId × Object (Implementation K.Handler)),
        (∀ e ∈ es, e ∈ before ++ after) → ∀ w,
        Tenure.Steps h w (es.map .departure) w ∧ Tenure.Steps h w (es.flatMap Episode.notices) w := by
      intro es hes w
      refine ⟨.others fun e' he' => ?_, .others fun e' he' => ?_⟩
      · obtain ⟨e, he, rfl⟩ := List.mem_map.1 he'
        exact hothers e (hes e he) _ (List.mem_cons_self ..)
      · obtain ⟨e, he, he'⟩ := List.mem_flatMap.1 he'
        exact hothers e (hes e he) _ (List.mem_cons_of_mem _ he')
    have hbefore := hdepartures before.reverse fun e he =>
      List.mem_append_left _ (List.mem_reverse.1 he)
    have hafter := hdepartures after.reverse fun e he =>
      List.mem_append_right _ (List.mem_reverse.1 he)
    refine .append (u := v) (.append (.append (hafter t).1 (.single ?_)) (hbefore v).1)
      (.append (.append (hafter v).2 ?_) (hbefore u).2)
    · unfold Episode.departure
      dsimp only
      rw [hhandle]
      exact hleft
    · unfold Episode.notices
      dsimp only
      rw [hhandle]
      exact hnoted

/-- The connection after one object was changed. -/
theorem modify (hm : Matches h running t c) {running' : Option Handle} {u : Tenure K} {id : ObjectId}
    {o : Object (Implementation K.Handler)} (hget : c.table.get id = .ok o)
    (implementation : Option (Implementation K.Handler))
    (hheld : (if h = ⟨id, o.generation⟩ then some implementation else t.held) = u.held)
    (hout : running' = some h ↔ u.isOut) (hsettled : ∀ i, u ≠ .parting i)
    (hhere : u ≠ .awaited → t ≠ .awaited) :
    Matches h running' u { c with
      table := c.table.modify id fun o => { o with implementation } } := by
  have hbehind := Table.behind_modify (f := fun o => { o with implementation }) hget rfl h
  refine ⟨hm.room, Table.ascending_modify hm.ascending id _, ?_, hout, hsettled, fun hu => ?_⟩
  · show ((c.table.modify id _).behind h).map _ = _
    rw [hbehind, ← hheld, ← hm.held]
    split
    · rfl
    · rfl
  · show h.generation < (c.table.modify id _).nextGeneration
    rw [Table.nextGeneration_modify]
    exact hm.handed (hhere hu)

/-- The object behind a handle, as the tenure sees it. -/
theorem held_of_get (hm : Matches h running t c) {id : ObjectId}
    {o : Object (Implementation K.Handler)} (hget : c.table.get id = .ok o)
    (heq : h = ⟨id, o.generation⟩) : t.held = some o.implementation := by
  rw [← hm.held, heq, Table.behind_of_get hget]
  rfl

/-- An implementation that is not the one that is out is not out. -/
theorem not_out (hm : Matches h running t c) (hne : running ≠ some h) : t.isOut = false := by
  cases hout : t.isOut with
  | false => rfl
  | true => exact absurd (hm.out.2 hout) hne

/-- An implementation is taken out. -/
theorem take (hm : Matches h none t c) {id : ObjectId} {o : Object (Implementation K.Handler)}
    {i : Implementation K.Handler} (hget : c.table.get id = .ok o) (hbound : o.implementation = some i) :
    ∃ u, Tenure.Steps h t [.asked ⟨id, o.generation⟩ i] u ∧
      Matches h (some ⟨id, o.generation⟩) u (c.takeImplementation id).2 := by
  rw [Connection.takeImplementation_of_get hget]
  have hin := hm.not_out nofun
  by_cases heq : h = ⟨id, o.generation⟩
  · have hheld := hm.held_of_get hget heq
    rw [hbound] at hheld
    have ht : t = .serving i := by
      cases t with
      | serving j =>
        injection hheld with hheld
        injection hheld with hheld
        rw [hheld]
      | vacant => cases hheld
      | busy => cases hin
      | _ => cases hheld
    subst ht
    refine ⟨.busy, .single (heq ▸ .asked), hm.modify hget none ?_ ?_ nofun fun _ => nofun⟩
    · rw [if_pos heq]
      rfl
    · rw [← heq]
      exact ⟨fun _ => rfl, fun _ => rfl⟩
  · refine ⟨t, .single (.other fun hsame => ?_), hm.modify hget none ?_ ?_ hm.settled fun ht => ht⟩
    · injection hsame with hsame
      exact heq hsame.symm
    · rw [if_neg heq]
    · rw [hin]
      refine ⟨fun hsame => ?_, nofun⟩
      injection hsame with hsame
      exact absurd hsame.symm heq

/-- Where there is none, nothing is taken out. -/
theorem skip (hm : Matches h none t c) {id : ObjectId} {o : Object (Implementation K.Handler)}
    (hget : c.table.get id = .ok o) (hunbound : o.implementation = none) :
    Matches h none t (c.takeImplementation id).2 := by
  rw [Connection.takeImplementation_of_get hget]
  refine hm.modify hget none ?_ hm.out hm.settled fun ht => ht
  split
  · rename_i heq
    rw [hm.held_of_get hget heq, hunbound]
  · rfl

/-- An implementation is installed; never on the object on whose behalf a program runs. -/
theorem bind (hm : Matches h running t c) {id : ObjectId} {o : Object (Implementation K.Handler)}
    (i : Implementation K.Handler) (hget : c.table.get id = .ok o) (hunbound : o.implementation = none)
    (hself : running.map (·.id) ≠ some id) :
    ∃ u, Tenure.Steps h t [.installed ⟨id, o.generation⟩ i] u ∧ Matches h running u { c with
      table := c.table.modify id fun o => { o with implementation := some i } } := by
  by_cases heq : h = ⟨id, o.generation⟩
  · have hheld := hm.held_of_get hget heq
    rw [hunbound] at hheld
    have ht : t = .vacant := by
      cases t with
      | vacant => rfl
      | busy =>
        have hrunning := hm.out.2 rfl
        rw [hrunning, heq] at hself
        exact absurd rfl hself
      | serving j =>
        injection hheld with hheld
        cases hheld
      | _ => cases hheld
    subst ht
    refine ⟨.serving i, .single (heq ▸ .installed), hm.modify hget (some i) ?_ hm.out nofun
      fun _ => nofun⟩
    rw [if_pos heq]
    rfl
  · refine ⟨t, .single (.other fun hsame => ?_), hm.modify hget (some i) ?_ hm.out hm.settled fun ht => ht⟩
    · injection hsame with hsame
      exact heq hsame.symm
    · rw [if_neg heq]

end

/-! ### Actions -/

section
variable {app : Application} {h : Handle} {running running' : Option Handle} {t : Tenure app.toKit}
  {c : Connection app.toKit}

/-- Where nothing happens, the tenure stays as it is. -/
theorem exists_of_quiet {c' : Connection app.toKit} (hm : Matches h running t c') :
    ∃ u, Tenure.Steps h t [] u ∧ Matches h running u c' := ⟨t, .nil, hm⟩

theorem apply_queue (hm : Matches h running t c) (id : ObjectId) (opcode : UInt16)
    (args : List Wire.Arg) : Matches h running t (Action.apply app (.queue id opcode args) c) := by
  unfold Action.apply
  dsimp only
  cases henc : c.encodeEvent id opcode args with
  | error e => exact hm
  | ok p =>
    obtain ⟨m, outbound⟩ := p
    obtain ⟨-, -, -, -, -, -, hpush⟩ := Connection.encodeEvent_eq_ok_iff.1 henc
    obtain ⟨-, rfl⟩ := (Outbox.push_eq_ok_iff _ _ _).1 hpush
    exact hm.of_eq rfl rfl rfl

theorem apply_destroy (hm : Matches h running t c) (id : ObjectId) :
    ∃ u, Tenure.Steps h t (Action.episodes app (.destroy id) c) u ∧
      Matches h running u (Action.apply app (.destroy id) c) := by
  unfold Action.episodes Action.apply
  dsimp only
  rcases Connection.destroy_cases app hm.room id with ⟨e, heq⟩ | ⟨o, table, -, -, hremove, heq⟩
  · rw [heq]
    split
    · exact hm.exists_of_quiet
    · exact hm.exists_of_quiet
  · obtain ⟨hlive, -, -⟩ := Table.objects_remove hremove
    rw [heq, Table.get_eq_ok_iff_get?.2 hlive]
    obtain ⟨u, hsteps, hu⟩ := hm.remove hremove
    obtain ⟨htable, -, -, hlimit⟩ := Connection.announced_keeps { c with table } id
    exact ⟨u, hsteps, hu.of_eq hlimit (congrArg (·.objects) htable)
      (congrArg (·.nextGeneration) htable)⟩

theorem apply_create (hm : Matches h running t c) (interface : String) (version : UInt32) :
    ∃ u, Tenure.Steps h t (Action.episodes app (.create interface version) c) u ∧
      Matches h running u (Action.apply app (.create interface version) c) := by
  unfold Action.episodes Action.apply
  dsimp only
  rcases c.create_cases interface version with ⟨e, heq⟩ | ⟨i, id, handle, table, -, -, hinsert, heq⟩
  · rw [heq]
    exact hm.exists_of_quiet
  · rw [heq]
    exact hm.insert rfl hinsert

theorem apply_insertCreated (hm : Matches h running t c) (version : UInt32) (params : List Wire.Param)
    (args : List Wire.Arg) :
    ∃ u, Tenure.Steps h t (Action.episodes app (.insertCreated version params args) c) u ∧
      Matches h running u (Action.apply app (.insertCreated version params args) c) := by
  unfold Action.episodes Action.apply
  dsimp only
  split
  · cases hcreated : c.insertCreated version params args with
    | error v => exact hm.exists_of_quiet
    | ok c' =>
      dsimp only
      rcases Connection.insertCreated_cases hcreated with
        ⟨hnone, rfl⟩ | ⟨id, i, _, handle, table, hid, -, hinsert, rfl⟩
      · rw [hnone]
        exact hm.exists_of_quiet
      · obtain ⟨rfl, -⟩ := Table.nextGeneration_insert hinsert
        rw [hid]
        exact hm.insert rfl hinsert
  · exact hm.exists_of_quiet

theorem apply_bind (hm : Matches h running t c) {id : ObjectId} (i : Implementation app.Handler)
    (hself : running.map (·.id) ≠ some id) :
    ∃ u, Tenure.Steps h t (Action.episodes app (.bind id i) c) u ∧
      Matches h running u (Action.apply app (.bind id i) c) := by
  unfold Action.episodes Action.apply
  dsimp only
  rcases c.bind_cases id i with ⟨e, heq⟩ | ⟨o, -, hget, hunbound, heq⟩
  · rw [heq]
    exact hm.exists_of_quiet
  · rw [heq]
    exact hm.bind i hget hunbound hself

theorem apply_withdraw (hm : Matches h running t c) (name : UInt32) :
    Matches h running t (Action.apply app (.withdraw name) c) := by
  unfold Action.apply
  dsimp only
  split
  · exact hm
  · exact hm.of_eq rfl rfl rfl

theorem apply_close (hm : Matches h running t c) :
    ∃ u, Tenure.Steps h t (Action.episodes app .close c) u ∧
      Matches h running u (Action.apply app .close c) := by
  unfold Action.episodes Action.apply Connection.close
  dsimp only
  split
  · obtain ⟨u, hsteps, hheld, hout, hsettled, hhere⟩ := hm.removeAll
    refine ⟨u, hsteps, hm.room, List.Pairwise.nil, hheld.symm, ?_, hsettled, fun hu => hm.handed (hhere hu)⟩
    rw [hout]
    exact hm.out
  · exact hm.exists_of_quiet

/-- Plain actions keep a tenure in step, whichever implementation is out. -/
theorem plain (hm : Matches h running t c) {a : Action app.toKit}
    (hplain : a.IsPlain (running.map (·.id))) :
    ∃ u, Tenure.Steps h t (a.episodes app c) u ∧ Matches h running u (a.apply app c) := by
  cases a with
  | queue id opcode args => exact (hm.apply_queue id opcode args).exists_of_quiet
  | destroy id => exact hm.apply_destroy id
  | create interface version => exact hm.apply_create interface version
  | insertCreated version params args => exact hm.apply_insertCreated version params args
  | bind id i => exact hm.apply_bind i hplain
  | count => exact ⟨t, .nil, hm.of_eq rfl rfl rfl⟩
  | record world => exact ⟨t, .single (.other nofun), hm.of_eq rfl rfl rfl⟩
  | close => exact hm.apply_close
  | take id => exact False.elim hplain
  | giveBack id generation i => exact False.elim hplain
  | withdraw name => exact False.elim hplain
  | drain => exact False.elim hplain
  | drainFds => exact False.elim hplain

/-- An implementation is put back, or takes note. -/
theorem giveBack {b : Handle} (hm : Matches h (some b) t c) (i : Implementation app.Handler) :
    ∃ u, Tenure.Steps h t (Action.episodes app (.giveBack b.id b.generation i) c) u ∧
      Matches h none u (c.giveBack app b.id b.generation i) := by
  have hother : h ≠ b → some b ≠ some h := fun hne heq => by
    injection heq with heq
    exact hne heq.symm
  rcases giveBack_episodes_cases app c b.id b.generation i with
    ⟨o, hlive, hunbound, hepisodes, heq⟩ | ⟨hgone, hepisodes, heq⟩
  · -- its object waits for it
    obtain ⟨hget, hgeneration⟩ := Table.behind_eq_some_iff.1 (Table.byHandle_eq_ok_iff.1 hlive)
    have hget := Table.get_eq_ok_iff_get?.2 hget
    have hhandle : (⟨b.id, o.generation⟩ : Handle) = b := by rw [hgeneration]
    rw [hepisodes, heq]
    by_cases hsame : h = b
    · have hheld := hm.held_of_get hget (hsame.trans hhandle.symm)
      rw [hunbound] at hheld
      have ht : t = .busy := by
        have hout := hm.out.1 (congrArg some hsame.symm)
        cases t with
        | busy => rfl
        | parted => cases hheld
        | _ => cases hout
      subst ht
      refine ⟨.serving i, .single (hsame ▸ .returned), hm.modify hget (some i) ?_ ⟨nofun, nofun⟩ nofun
        fun _ => nofun⟩
      rw [hhandle, if_pos hsame]
      rfl
    · have hin := hm.not_out (hother hsame)
      refine ⟨t, .single (.other fun habout => ?_), hm.modify hget (some i) ?_ ?_ hm.settled fun ht => ht⟩
      · injection habout with habout
        exact hsame habout.symm
      · rw [hhandle, if_neg hsame]
      · rw [hin]
        exact ⟨nofun, nofun⟩
  · -- its object has left, or has another implementation by now
    rw [hepisodes, heq]
    by_cases hsame : h = b
    · have hout := hm.out.1 (congrArg some hsame.symm)
      have ht : t = .parted := by
        cases t with
        | parted => rfl
        | busy =>
          -- an object whose implementation is out has none
          have hheld := hm.held
          rw [hsame] at hheld
          obtain ⟨o, ho, hunbound⟩ := Option.map_eq_some_iff.1 hheld
          exact absurd hunbound (hgone o (Table.byHandle_eq_ok_iff.2 ho))
        | _ => cases hout
      subst ht
      exact ⟨.ended, .single (hsame ▸ .notified_parted), hm.room, hm.ascending, hm.held, ⟨nofun, nofun⟩,
        nofun, fun _ => hm.handed nofun⟩
    · have hin := hm.not_out (hother hsame)
      refine ⟨t, .single (.other fun habout => ?_), hm.room, hm.ascending, hm.held, ?_, hm.settled,
        hm.handed⟩
      · injection habout with habout
        exact hsame habout.symm
      · rw [hin]
        exact ⟨nofun, nofun⟩

end

end Matches

end Compositor.Sessions
