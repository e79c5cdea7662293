import Compositor.Proofs.Session.Episodes

/-
  The tenure of an implementation.

  `Tenure` says where an object and its implementation stand: the object enters the table, is given an
  implementation, the implementation is out and back for each request, the object leaves, and the
  implementation takes note of it.  `Tenure.Steps` follows one handle along episodes; it has no step for
  an episode out of turn, such as a request after the end or a second notice.

  What is here is about lists of episodes alone: `Steps.held_iff` says which objects are live after
  them, `Steps.exists_departure` and `Steps.notified_once` what an end looks like, `Steps.last_of_serving`
  which implementation an object has.
-/

namespace Compositor.Sessions

open Compositor.Objects (Handle)

/-! ## Episodes of one object -/

namespace Episode

variable {K : Kit}

/-- Is this the end of the object, or the notice of it? -/
def Ends (h : Handle) (e : Episode K) : Prop := e = .left h ∨ ∃ i, e = .notified h i

/-- The last of the episodes that is about the object behind a handle. -/
def LastOf (h : Handle) (es : List (Episode K)) (e : Episode K) : Prop :=
  e.handle? = some h ∧ ∃ before after, es = before ++ e :: after ∧ ∀ e' ∈ after, e'.handle? ≠ some h

theorem LastOf.append {h : Handle} {es : List (Episode K)} {e : Episode K} (hlast : LastOf h es e)
    (before : List (Episode K)) : LastOf h (before ++ es) e := by
  obtain ⟨habout, first, rest, rfl, hrest⟩ := hlast
  exact ⟨habout, before ++ first, rest, (List.append_assoc ..).symm, hrest⟩

end Episode

/-! ## Tenures -/

/-- Where the object behind a handle and its implementation stand. -/
inductive Tenure (K : Kit) where
  /-- There is no such object yet. -/
  | awaited
  /-- The object is live, and was never given an implementation. -/
  | vacant
  | serving (implementation : Implementation K.Handler)
  /-- The implementation is out, handling a request. -/
  | busy
  /-- The object has left; its implementation has yet to take note. -/
  | parting (implementation : Implementation K.Handler)
  /-- The object has left while its implementation was out. -/
  | parted
  | ended

namespace Tenure

variable {K : Kit}

/-- What the table holds behind the handle: an object, with or without an implementation. -/
def held : Tenure K → Option (Option (Implementation K.Handler))
  | .vacant => some none
  | .serving i => some (some i)
  | .busy => some none
  | _ => none

def hasLeft : Tenure K → Bool
  | .parting _ => true
  | .parted => true
  | .ended => true
  | _ => false

/-- Has the object never had an implementation so far? -/
def isUnserved : Tenure K → Bool
  | .awaited => true
  | .vacant => true
  | _ => false

/-- The episodes that may come next, and where they lead; those of other objects lead nowhere. -/
inductive Step (h : Handle) : Tenure K → Episode K → Tenure K → Prop where
  | other {t : Tenure K} {e : Episode K} (he : e.handle? ≠ some h) : Step h t e t
  | entered : Step h .awaited (.entered h) .vacant
  | installed {i : Implementation K.Handler} : Step h .vacant (.installed h i) (.serving i)
  | asked {i : Implementation K.Handler} : Step h (.serving i) (.asked h i) .busy
  | returned {i : Implementation K.Handler} : Step h .busy (.returned h i) (.serving i)
  | left_vacant : Step h .vacant (.left h) .ended
  | left_serving {i : Implementation K.Handler} : Step h (.serving i) (.left h) (.parting i)
  | left_busy : Step h .busy (.left h) .parted
  | notified_parting {i : Implementation K.Handler} : Step h (.parting i) (.notified h i) .ended
  | notified_parted {i : Implementation K.Handler} : Step h .parted (.notified h i) .ended

/-- Episodes one after the other. -/
inductive Steps (h : Handle) : Tenure K → List (Episode K) → Tenure K → Prop where
  | nil {t : Tenure K} : Steps h t [] t
  | cons {t u v : Tenure K} {e : Episode K} {es : List (Episode K)} (hstep : Step h t e u)
      (hsteps : Steps h u es v) : Steps h t (e :: es) v

variable {h : Handle} {t u v : Tenure K} {e : Episode K} {es es' : List (Episode K)}

theorem Steps.single (hstep : Step h t e u) : Steps h t [e] u := .cons hstep .nil

theorem Steps.append (hes : Steps h t es u) (hes' : Steps h u es' v) : Steps h t (es ++ es') v := by
  induction hes with
  | nil => exact hes'
  | cons hstep _ ih => exact .cons hstep (ih hes')

theorem Steps.exists_of_append (hall : Steps h t (es ++ es') v) :
    ∃ u, Steps h t es u ∧ Steps h u es' v := by
  induction es generalizing t with
  | nil => exact ⟨t, .nil, hall⟩
  | cons e es ih =>
    cases hall with
    | cons hstep hrest =>
      obtain ⟨u, hes, hes'⟩ := ih hrest
      exact ⟨u, .cons hstep hes, hes'⟩

/-- The episodes of other objects change nothing. -/
theorem Steps.others (hothers : ∀ e ∈ es, e.handle? ≠ some h) : Steps h t es t := by
  induction es with
  | nil => exact .nil
  | cons e es ih =>
    exact .cons (.other (hothers e (List.mem_cons_self ..)))
      (ih fun e' he' => hothers e' (List.mem_cons_of_mem e he'))

/-! ### While the object is live -/

/-- An object is live if it has entered and not left. -/
theorem Steps.held_iff (hsteps : Steps h t es u) : u.held.isSome ↔
    (t.held.isSome ∨ t = .awaited ∧ .entered h ∈ es) ∧ .left h ∉ es := by
  induction hsteps with
  | nil => simp
  | @cons t v u e es hstep _ ih =>
    rw [ih]
    cases hstep with
    | other he =>
      -- an episode of another object is neither of the two
      have hentered : Episode.entered h ≠ e := fun heq => he (heq ▸ rfl)
      have hleft : Episode.left h ≠ e := fun heq => he (heq ▸ rfl)
      simp [hentered, hleft]
    | _ => simp [held]

/-- Once an object has left it does not come back. -/
theorem Step.hasLeft (hstep : Step h t e u) (ht : t.hasLeft) : u.hasLeft := by
  cases hstep with
  | other => exact ht
  | notified_parting => rfl
  | notified_parted => rfl
  | _ => cases ht

theorem Steps.hasLeft (hsteps : Steps h t es u) (ht : t.hasLeft) : u.hasLeft := by
  induction hsteps with
  | nil => exact ht
  | cons hstep _ ih => exact ih (hstep.hasLeft ht)

/-- As long as an object has not left, there is no end of it. -/
theorem Steps.not_ends (hsteps : Steps h t es u) (hu : u.hasLeft = false) :
    ∀ e ∈ es, ¬ e.Ends h := by
  induction hsteps with
  | nil => exact List.forall_mem_nil _
  | @cons t v u e es hstep hrest ih =>
    have hv : v.hasLeft = false := by
      cases hv : v.hasLeft with
      | false => rfl
      | true =>
        rw [hrest.hasLeft hv] at hu
        cases hu
    refine List.forall_mem_cons.2 ⟨?_, ih hu⟩
    rintro (rfl | ⟨i, rfl⟩)
    · cases hstep with
      | other he => exact he rfl
      | left_vacant => cases hv
      | left_serving => cases hv
      | left_busy => cases hv
    · cases hstep with
      | other he => exact he rfl
      | notified_parting => cases hv
      | notified_parted => cases hv

/-! ### The end -/

/-- An object that has left in the end has left at some point. -/
theorem Steps.exists_departure (hsteps : Steps h t es u) (ht : t.hasLeft = false) (hu : u.hasLeft) :
    ∃ before after v w, es = before ++ .left h :: after ∧ Steps h t before v ∧ v.hasLeft = false ∧
      Step h v (.left h) w ∧ Steps h w after u := by
  induction hsteps with
  | nil =>
    rw [ht] at hu
    cases hu
  | @cons t v u e es hstep hrest ih =>
    cases hv : v.hasLeft with
    | false =>
      obtain ⟨before, after, v', w, rfl, hbefore, hleft, hdeparture, hafter⟩ := ih hv hu
      exact ⟨e :: before, after, v', w, rfl, .cons hstep hbefore, hleft, hdeparture, hafter⟩
    | true =>
      -- this is the step that it leaves by
      cases hstep with
      | other =>
        rw [ht] at hv
        cases hv
      | left_vacant => exact ⟨[], es, _, _, rfl, .nil, ht, .left_vacant, hrest⟩
      | left_serving => exact ⟨[], es, _, _, rfl, .nil, ht, .left_serving, hrest⟩
      | left_busy => exact ⟨[], es, _, _, rfl, .nil, ht, .left_busy, hrest⟩
      | notified_parting => cases ht
      | notified_parted => cases ht
      | _ => cases hv

/-- When all is over, nothing befalls the object any more. -/
theorem Steps.of_ended (hsteps : Steps h .ended es u) :
    u = .ended ∧ ∀ e ∈ es, e.handle? ≠ some h := by
  generalize ht : Tenure.ended = t at hsteps
  induction hsteps with
  | nil => exact ⟨rfl, List.forall_mem_nil _⟩
  | cons hstep _ ih =>
    cases hstep with
    | other he =>
      obtain ⟨hu, hrest⟩ := ih ht
      exact ⟨hu, List.forall_mem_cons.2 ⟨he, hrest⟩⟩
    | _ => cases ht

/-- The implementation of an object that has left takes note of it once, and nothing else befalls the
two. -/
theorem Steps.notified_once (hsteps : Steps h t es .ended) (hleft : t.hasLeft) (hended : t ≠ .ended) :
    ∃ before i after, es = before ++ .notified h i :: after ∧
      (∀ e ∈ before ++ after, e.handle? ≠ some h) ∧ ∀ j, t = .parting j → i = j := by
  generalize hu : Tenure.ended = u at hsteps
  induction hsteps with
  | nil => exact absurd hu.symm hended
  | @cons t v u e es hstep hrest ih =>
    subst hu
    cases hstep with
    | other he =>
      obtain ⟨before, i, after, rfl, hsilent, hsame⟩ := ih hleft hended rfl
      exact ⟨e :: before, i, after, rfl, List.forall_mem_cons.2 ⟨he, hsilent⟩, hsame⟩
    | @notified_parting i =>
      refine ⟨[], i, es, rfl, hrest.of_ended.2, fun j hj => ?_⟩
      injection hj
    | @notified_parted i =>
      refine ⟨[], i, es, rfl, hrest.of_ended.2, fun j hj => ?_⟩
      cases hj
    | _ => cases hleft

/-! ### Implementations -/

/-- An object is given an implementation once: before that it has none. -/
theorem Steps.not_installed_of_isUnserved (hsteps : Steps h t es u) (hu : u.isUnserved) :
    t.isUnserved ∧ ∀ i, .installed h i ∉ es := by
  induction hsteps with
  | nil => exact ⟨hu, fun i hi => by cases hi⟩
  | cons hstep _ ih =>
    obtain ⟨hv, hrest⟩ := ih hu
    cases hstep with
    | other he =>
      refine ⟨hv, fun i hi => ?_⟩
      rcases List.mem_cons.1 hi with rfl | hi
      · exact he rfl
      · exact hrest i hi
    | entered =>
      refine ⟨rfl, fun i hi => ?_⟩
      rcases List.mem_cons.1 hi with heq | hi
      · cases heq
      · exact hrest i hi
    | _ => cases hv

/-- After that it is not given another one. -/
theorem Steps.not_installed_of_served (hsteps : Steps h t es u) (ht : t.isUnserved = false) :
    u.isUnserved = false ∧ ∀ i, .installed h i ∉ es := by
  induction hsteps with
  | nil => exact ⟨ht, fun i hi => by cases hi⟩
  | cons hstep _ ih =>
    have hrest := ih (by
      cases hstep with
      | other => exact ht
      | entered => cases ht
      | _ => rfl)
    refine ⟨hrest.1, fun i hi => ?_⟩
    rcases List.mem_cons.1 hi with rfl | hi
    · cases hstep with
      | other he => exact he rfl
      | installed => cases ht
    · exact hrest.2 i hi

/-- An object with an implementation has the one that it was given or that came back last. -/
theorem Steps.last_of_serving {i : Implementation K.Handler} (hsteps : Steps h t es (.serving i)) :
    (t = .serving i ∧ ∀ e ∈ es, e.handle? ≠ some h) ∨
      Episode.LastOf h es (.installed h i) ∨ Episode.LastOf h es (.returned h i) := by
  generalize hu : Tenure.serving i = u at hsteps
  induction hsteps with
  | nil => exact .inl ⟨rfl, List.forall_mem_nil _⟩
  | @cons t v u e es hstep hrest ih =>
    subst hu
    rcases ih rfl with ⟨rfl, hsilent⟩ | hlast | hlast
    · cases hstep with
      | other he =>
        exact .inl ⟨rfl, List.forall_mem_cons.2 ⟨he, hsilent⟩⟩
      | installed => exact .inr (.inl ⟨rfl, [], es, rfl, hsilent⟩)
      | returned => exact .inr (.inr ⟨rfl, [], es, rfl, hsilent⟩)
    · exact .inr (.inl (hlast.append [e]))
    · exact .inr (.inr (hlast.append [e]))

/-- An implementation that is out was asked last. -/
theorem Steps.last_of_busy (hsteps : Steps h t es .busy) :
    (t = .busy ∧ ∀ e ∈ es, e.handle? ≠ some h) ∨ ∃ i, Episode.LastOf h es (.asked h i) := by
  generalize hu : Tenure.busy = u at hsteps
  induction hsteps with
  | nil => exact .inl ⟨rfl, List.forall_mem_nil _⟩
  | @cons t v u e es hstep hrest ih =>
    subst hu
    rcases ih rfl with ⟨rfl, hsilent⟩ | ⟨i, hlast⟩
    · cases hstep with
      | other he =>
        exact .inl ⟨rfl, List.forall_mem_cons.2 ⟨he, hsilent⟩⟩
      | @asked i => exact .inr ⟨i, rfl, [], es, rfl, hsilent⟩
    · exact .inr ⟨i, hlast.append [e]⟩

end Tenure

end Compositor.Sessions
