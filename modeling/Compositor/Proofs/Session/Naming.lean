import Compositor.Proofs.Session.Withdrawal
import Mathlib.Algebra.Group.Nat.Defs

/-
  The names of globals.

  Names come from a counter, and nothing sets it back: as long as it does not run over, the names handed out are
  1, 2, 3 and so on, whatever is withdrawn in between.  The list of globals keeps the names in the order in
  which they were handed out, less those that were withdrawn.  `Numbers` says both, and every edit of the list
  keeps it (`Numbers.edit`).  So no two globals have the same name, which is what makes the search for the first
  one of a name right: an edit changes what is found under a name only if it hands the name out or withdraws it
  (`Numbers.get?_edit`).

  `neverReuses_of_room` puts together what that means for any number of edits.
-/

namespace Compositor.Sessions.Globals

/-! ## Edits -/

/-- A change to the list of globals. -/
inductive Edit (β : Type) where
  | add (interface : String) (version : UInt32) (binder : β)
  | remove (name : UInt32)

section
variable {β : Type}

/-- Is this the addition of a global? -/
def Edit.isAddition : Edit β → Bool
  | .add .. => true
  | .remove _ => false

/-- The globals after an edit; without a global of the name a withdrawal changes nothing. -/
def edit (gs : Globals β) : Edit β → Globals β
  | .add interface version binder => (gs.add interface version binder).2
  | .remove name =>
    match gs.remove? name with
    | some (_, gs') => gs'
    | none => gs

/-- The globals after some edits. -/
def editAll (gs : Globals β) (es : List (Edit β)) : Globals β := es.foldl edit gs

/-- The name that an edit hands out, if it adds a global. -/
def handedOut (gs : Globals β) : Edit β → List UInt32
  | .add interface version binder => [(gs.add interface version binder).1]
  | .remove _ => []

/-- The names that edits hand out, one after the other. -/
def handedOutAll (gs : Globals β) : List (Edit β) → List UInt32
  | [] => []
  | e :: es => gs.handedOut e ++ (gs.edit e).handedOutAll es

theorem editAll_append (gs : Globals β) (es es' : List (Edit β)) :
    gs.editAll (es ++ es') = (gs.editAll es).editAll es' := List.foldl_append

/-! ## The counter and the list -/

/-- The names `names` were handed out for the globals `gs`: they count up from one to the last name, and what is
listed keeps their order. -/
structure Numbers (gs : Globals β) (names : List UInt32) : Prop where
  counted : names.map UInt32.toNat = List.range' 1 gs.lastName.toNat
  listed : (gs.entries.map (·.name)).Sublist names

namespace Numbers

variable {gs : Globals β} {names : List UInt32}

theorem empty : Numbers ({} : Globals β) [] := ⟨rfl, .slnil⟩

/-- Names are handed out in ascending order. -/
theorem ascending (h : Numbers gs names) : names.Pairwise (· < ·) := by
  have hcounted : (names.map UInt32.toNat).Pairwise (· < ·) := by
    rw [h.counted]
    exact List.pairwise_lt_range'
  rw [List.pairwise_map] at hcounted
  exact hcounted.imp UInt32.lt_iff_toNat_lt.2

/-- A name was handed out if the counter has come past it. -/
theorem mem_iff (h : Numbers gs names) (name : UInt32) :
    name ∈ names ↔ 1 ≤ name.toNat ∧ name.toNat ≤ gs.lastName.toNat := by
  have hmem : name ∈ names ↔ name.toNat ∈ names.map UInt32.toNat := by
    rw [List.mem_map]
    constructor
    · intro hname
      exact ⟨name, hname, rfl⟩
    · rintro ⟨other, hother, heq⟩
      rw [← UInt32.toNat_inj.1 heq]
      exact hother
  rw [hmem, h.counted, List.mem_range'_1]
  omega

theorem mem_of_listed (h : Numbers gs names) {g : Global β} (hg : g ∈ gs.entries) : g.name ∈ names :=
  h.listed.subset (List.mem_map_of_mem hg)

/-- The next name, while there is one. -/
theorem toNat_next (gs : Globals β) (hroom : gs.lastName.toNat + 1 < 2 ^ 32) :
    (gs.lastName + 1).toNat = gs.lastName.toNat + 1 := by
  rw [UInt32.toNat_add, UInt32.toNat_one, Nat.mod_eq_of_lt hroom]

/-- Names for all that is added are names for what is added first. -/
theorem room_of_cons {e : Edit β} {es : List (Edit β)}
    (hroom : gs.lastName.toNat + (e :: es).countP Edit.isAddition < 2 ^ 32) (hadd : e.isAddition) :
    gs.lastName.toNat + 1 < 2 ^ 32 := by
  rw [List.countP_cons_of_pos hadd] at hroom
  omega

/-- What is withdrawn leaves a gap, and all other globals where they are. -/
theorem remove?_eq (h : Numbers gs names) (name : UInt32) :
    gs.remove? name =
      (gs.get? name).map fun g => (g, ⟨gs.entries.filter (·.name != name), gs.lastName⟩) := by
  cases hremove : gs.remove? name with
  | none =>
    have hnone : gs.get? name = none := by
      unfold remove? at hremove
      split at hremove
      · cases hremove
      · assumption
    rw [hnone]
    rfl
  | some r =>
    obtain ⟨g, gs'⟩ := r
    have hget : gs.get? name = some g := by
      unfold remove? at hremove
      split at hremove
      · rename_i hget
        injection hremove with hremove
        injection hremove with hg
        rw [hget, hg]
      · cases hremove
    obtain ⟨hname, ⟨before, after, hentries, hbefore, hleft⟩, hlast⟩ := without_of_remove? hremove
    -- the names ascend, so none of the globals behind the first one of the name has it too
    have hafter : ∀ other ∈ after, other.name ≠ name := by
      intro other hother heq
      have hascending := h.ascending.sublist h.listed
      rw [hentries, List.map_append, List.map_cons, List.pairwise_append, List.pairwise_cons] at hascending
      have hlt := hascending.2.1.1 other.name (List.mem_map_of_mem hother)
      rw [hname, heq] at hlt
      exact UInt32.lt_irrefl name hlt
    have hfilter : gs.entries.filter (·.name != name) = before ++ after := by
      rw [hentries, List.filter_append, List.filter_cons_of_neg (by simp [hname]),
        List.filter_eq_self.2 fun other hother => bne_iff_ne.2 (hbefore other hother),
        List.filter_eq_self.2 fun other hother => bne_iff_ne.2 (hafter other hother)]
    rw [hget, Option.map_some, hfilter, ← hleft, ← hlast]

/-- A withdrawal leaves the globals of all other names. -/
theorem edit_remove (h : Numbers gs names) (name : UInt32) :
    gs.edit (.remove name) = ⟨gs.entries.filter (·.name != name), gs.lastName⟩ := by
  show (match gs.remove? name with
    | some (_, gs') => gs'
    | none => gs) = _
  rw [h.remove?_eq name]
  cases hget : gs.get? name with
  | some g => rfl
  | none =>
    have hall : ∀ g ∈ gs.entries, (g.name != name) = true := by
      unfold get? at hget
      intro g hg
      have hne := List.find?_eq_none.1 hget g hg
      exact bne_iff_ne.2 fun heq => hne (beq_iff_eq.2 heq)
    show gs = _
    rw [List.filter_eq_self.2 hall]

/-- An edit keeps the count, as long as there is a name for what it adds. -/
theorem edit (h : Numbers gs names) (e : Edit β) (hroom : e.isAddition → gs.lastName.toNat + 1 < 2 ^ 32) :
    Numbers (gs.edit e) (names ++ gs.handedOut e) := by
  cases e with
  | add interface version binder =>
    have hnext := toNat_next gs (hroom rfl)
    refine ⟨?_, ?_⟩
    · show (names ++ [gs.lastName + 1]).map UInt32.toNat = List.range' 1 (gs.lastName + 1).toNat
      rw [List.map_append, h.counted, List.map_singleton, hnext, List.range'_concat]
      congr 2
      omega
    · show ((gs.entries ++ [(⟨gs.lastName + 1, interface, version, binder⟩ : Global β)]).map (·.name)).Sublist
        (names ++ [gs.lastName + 1])
      rw [List.map_append]
      exact h.listed.append (.refl _)
  | remove name =>
    rw [h.edit_remove name]
    refine ⟨?_, ?_⟩
    · show (names ++ []).map UInt32.toNat = List.range' 1 gs.lastName.toNat
      rw [List.append_nil, h.counted]
    · show ((gs.entries.filter _).map (·.name)).Sublist (names ++ [])
      rw [List.append_nil]
      exact (List.filter_sublist.map _).trans h.listed

/-- The counter moves by one for each addition. -/
theorem toNat_lastName_edit (h : Numbers gs names) (e : Edit β)
    (hroom : e.isAddition → gs.lastName.toNat + 1 < 2 ^ 32) :
    (gs.edit e).lastName.toNat = gs.lastName.toNat + if e.isAddition then 1 else 0 := by
  cases e with
  | add interface version binder => exact toNat_next gs (hroom rfl)
  | remove name =>
    rw [h.edit_remove name]
    rfl

/-- So do any number of edits, as long as there are names for all that they add. -/
theorem editAll (es : List (Edit β)) : ∀ {gs : Globals β} {names : List UInt32}, Numbers gs names →
    gs.lastName.toNat + es.countP Edit.isAddition < 2 ^ 32 →
      Numbers (gs.editAll es) (names ++ gs.handedOutAll es) ∧
        (gs.editAll es).lastName.toNat = gs.lastName.toNat + es.countP Edit.isAddition := by
  induction es with
  | nil =>
    intro gs names h _
    rw [handedOutAll, List.append_nil]
    exact ⟨h, rfl⟩
  | cons e es ih =>
    intro gs names h hroom
    have hone := room_of_cons hroom
    rw [List.countP_cons] at hroom ⊢
    have hlast := h.toNat_lastName_edit e hone
    obtain ⟨hnumbers, hcount⟩ := ih (h.edit e hone) (by omega)
    rw [handedOutAll, ← List.append_assoc]
    refine ⟨hnumbers, ?_⟩
    show ((gs.edit e).editAll es).lastName.toNat = _
    omega

/-! ## What is found under a name -/

/-- An edit that does not withdraw a name leaves what is found under it. -/
theorem get?_edit (h : Numbers gs names) {name : UInt32} (hname : name ∈ names) {e : Edit β}
    (hroom : e.isAddition → gs.lastName.toNat + 1 < 2 ^ 32) (he : e ≠ .remove name) :
    (gs.edit e).get? name = gs.get? name := by
  cases e with
  | add interface version binder =>
    have hnext := toNat_next gs (hroom rfl)
    have hle := ((h.mem_iff name).1 hname).2
    have hne : (gs.lastName + 1 == name) = false := by
      rw [beq_eq_false_iff_ne]
      rintro rfl
      omega
    show (gs.entries ++ [_]).find? _ = gs.entries.find? _
    rw [List.find?_append, List.find?_singleton, if_neg (by rw [hne]; exact Bool.false_ne_true), Option.or_none]
  | remove other =>
    have hother : other ≠ name := fun heq => he (congrArg Edit.remove heq)
    rw [h.edit_remove other]
    unfold get?
    show (gs.entries.filter _).find? _ = gs.entries.find? _
    rw [List.find?_filter]
    congr 1
    funext g
    by_cases heq : g.name = name
    · rw [heq, beq_self_eq_true, bne_iff_ne.2 hother.symm]
      rfl
    · rw [beq_false_of_ne heq, decide_eq_false (fun hand => Bool.false_ne_true hand.2)]

/-- Nothing is found under a name that was just withdrawn. -/
theorem get?_edit_remove (h : Numbers gs names) (name : UInt32) :
    (gs.edit (.remove name)).get? name = none := by
  rw [h.edit_remove name]
  unfold get?
  rw [List.find?_eq_none]
  intro g hg heq
  exact bne_iff_ne.1 (List.mem_filter.1 hg).2 (beq_iff_eq.1 heq)

/-- What is found under a name stays until the name is withdrawn. -/
theorem get?_editAll (es : List (Edit β)) {name : UInt32} : ∀ {gs : Globals β} {names : List UInt32},
    Numbers gs names → name ∈ names → gs.lastName.toNat + es.countP Edit.isAddition < 2 ^ 32 →
      (.remove name ∉ es → (gs.editAll es).get? name = gs.get? name) ∧
        (.remove name ∈ es ∨ gs.get? name = none → (gs.editAll es).get? name = none) := by
  induction es with
  | nil =>
    intro gs names _ _ _
    refine ⟨fun _ => rfl, fun h => ?_⟩
    rcases h with hmem | hnone
    · cases hmem
    · exact hnone
  | cons e es ih =>
    intro gs names h hname hroom
    have hone := room_of_cons hroom
    rw [List.countP_cons] at hroom
    have hlast := h.toNat_lastName_edit e hone
    obtain ⟨hkept, hgone⟩ := ih (h.edit e hone) (List.mem_append_left _ hname) (by omega)
    refine ⟨fun hnot => ?_, fun hor => ?_⟩
    · have hne : e ≠ .remove name := fun heq => hnot (List.mem_cons.2 (.inl heq.symm))
      have hrest : .remove name ∉ es := fun hmem => hnot (List.mem_cons_of_mem e hmem)
      exact (hkept hrest).trans (h.get?_edit hname hone hne)
    · by_cases he : e = .remove name
      · rw [he] at hgone ⊢
        exact hgone (.inr (h.get?_edit_remove name))
      · rcases hor with hmem | hnone
        · exact hgone (.inl ((List.mem_cons.1 hmem).resolve_left fun heq => he heq.symm))
        · exact hgone (.inr ((h.get?_edit hname hone he).trans hnone))

/-- What was just added is found under its name. -/
theorem get?_edit_add (h : Numbers gs names) (interface : String) (version : UInt32) (binder : β)
    (hroom : gs.lastName.toNat + 1 < 2 ^ 32) :
    (gs.edit (.add interface version binder)).get? (gs.lastName + 1) =
      some ⟨gs.lastName + 1, interface, version, binder⟩ := by
  refine get?_add gs interface version binder ?_
  unfold get?
  rw [List.find?_eq_none]
  intro g hg heq
  have hle := ((h.mem_iff g.name).1 (h.mem_of_listed hg)).2
  rw [beq_iff_eq.1 heq, toNat_next gs hroom] at hle
  omega

end Numbers

/-! ## Any number of edits -/

/-- The globals after some edits of an empty list. -/
def ofEdits (es : List (Edit β)) : Globals β := ({} : Globals β).editAll es

/-- The names that these edits have handed out. -/
def namesOf (es : List (Edit β)) : List UInt32 := ({} : Globals β).handedOutAll es

/-- What can be said of the names after some edits of an empty list. -/
structure NeverReuses (es : List (Edit β)) : Prop where
  ascending : ((ofEdits es).entries.map (·.name)).Pairwise (· < ·)
  le_lastName : ∀ g ∈ (ofEdits es).entries, g.name ≤ (ofEdits es).lastName
  /-- Every name that is handed out is above all that were handed out before. -/
  fresh : (namesOf es).Pairwise (· < ·)
  /-- Under the name that an addition was answered with its global is found, unless it was withdrawn since. -/
  found : ∀ before interface version binder after name, es = before ++ .add interface version binder :: after →
    name = ((ofEdits before).add interface version binder).1 → .remove name ∉ after →
      (ofEdits es).get? name = some ⟨name, interface, version, binder⟩
  /-- After a withdrawal nothing is found. -/
  gone : ∀ before interface version binder after name, es = before ++ .add interface version binder :: after →
    name = ((ofEdits before).add interface version binder).1 → .remove name ∈ after →
      (ofEdits es).get? name = none
  /-- Nor is anything under a name that was not handed out. -/
  strange : ∀ name, name ∉ namesOf es → (ofEdits es).get? name = none
  /-- A withdrawal takes what is found under the name, and leaves all other globals in their order. -/
  removal : ∀ name, (ofEdits es).remove? name = ((ofEdits es).get? name).map fun g =>
    (g, ⟨(ofEdits es).entries.filter (·.name != name), (ofEdits es).lastName⟩)

theorem numbers_ofEdits {es : List (Edit β)} (hroom : es.countP Edit.isAddition < 2 ^ 32) :
    Numbers (ofEdits es) (namesOf es) ∧ (ofEdits es).lastName.toNat = es.countP Edit.isAddition := by
  have hempty : Numbers ({} : Globals β) [] := .empty
  have hstart : ({} : Globals β).lastName.toNat = 0 := rfl
  obtain ⟨hnumbers, hcount⟩ := hempty.editAll es (by omega)
  exact ⟨hnumbers, by show (({} : Globals β).editAll es).lastName.toNat = _; omega⟩

/-- What becomes of a global that was added. -/
theorem get?_ofEdits {before after : List (Edit β)} {interface : String} {version : UInt32} {binder : β}
    (hroom : (before ++ .add interface version binder :: after).countP Edit.isAddition < 2 ^ 32) :
    let name := ((ofEdits before).add interface version binder).1
    (.remove name ∉ after → (ofEdits (before ++ .add interface version binder :: after)).get? name =
      some ⟨name, interface, version, binder⟩) ∧
        (.remove name ∈ after →
          (ofEdits (before ++ .add interface version binder :: after)).get? name = none) := by
  intro name
  rw [List.countP_append, List.countP_cons_of_pos rfl] at hroom
  have hfew : before.countP Edit.isAddition < 2 ^ 32 := by omega
  obtain ⟨hbefore, hcount⟩ := numbers_ofEdits hfew
  have hnext : (ofEdits before).lastName.toNat + 1 < 2 ^ 32 := by omega
  have hadded := hbefore.edit (.add interface version binder) fun _ => hnext
  have hlast : ((ofEdits before).edit (.add interface version binder)).lastName.toNat =
      (ofEdits before).lastName.toNat + 1 :=
    hbefore.toNat_lastName_edit (.add interface version binder) fun _ => hnext
  have hname : name ∈ namesOf before ++ (ofEdits before).handedOut (.add interface version binder) :=
    List.mem_append_right _ (List.mem_singleton.2 rfl)
  obtain ⟨hkept, hgone⟩ := hadded.get?_editAll after hname (by omega)
  have hsplit : ofEdits (before ++ .add interface version binder :: after) =
      ((ofEdits before).edit (.add interface version binder)).editAll after := editAll_append _ _ _
  rw [hsplit]
  refine ⟨fun hnot => ?_, fun hmem => hgone (.inl hmem)⟩
  exact (hkept hnot).trans (hbefore.get?_edit_add interface version binder hnext)

/-- Names are never used again, in any number of edits for which there are names. -/
theorem neverReuses_of_room (es : List (Edit β)) (hroom : es.countP Edit.isAddition < 2 ^ 32) :
    NeverReuses es := by
  obtain ⟨h, -⟩ := numbers_ofEdits hroom
  refine ⟨h.ascending.sublist h.listed, fun g hg => ?_, h.ascending, ?_, ?_, fun name hname => ?_, h.remove?_eq⟩
  · exact UInt32.le_iff_toNat_le.2 ((h.mem_iff g.name).1 (h.mem_of_listed hg)).2
  · rintro before interface version binder after name rfl rfl
    exact (get?_ofEdits hroom).1
  · rintro before interface version binder after name rfl rfl
    exact (get?_ofEdits hroom).2
  · unfold get?
    rw [List.find?_eq_none]
    intro g hg heq
    exact hname (eq_of_beq heq ▸ h.mem_of_listed hg)

end

/-- Two globals of which the first is withdrawn, before its name was there and again afterwards; a third one gets
the next name. -/
def sampleEdits : List (Edit Unit) :=
  [.remove 1, .add "wl_seat" 7 (), .add "wl_output" 4 (), .remove 1, .remove 1, .add "wl_seat" 8 ()]

theorem neverReuses_of_room_sample : sampleEdits.countP Edit.isAddition < 2 ^ 32 ∧ NeverReuses sampleEdits ∧
    namesOf sampleEdits = [1, 2, 3] ∧ (ofEdits sampleEdits).entries.map (·.name) = [2, 3] :=
  ⟨by decide, neverReuses_of_room sampleEdits (by decide), by decide, by decide⟩

end Compositor.Sessions.Globals
