import Mathlib.Data.List.Nodup
import Compositor.Proofs.Toml.Settings
import Compositor.Session.Limits

/-
  Limits survive their text form.

  The text of limits is one line for each of four settings with different keys (`Limits.settings`), and the
  reader finds each of them again, or its default where the line is left out (`Limits.limit?_of_abridges`).  So
  what is read are the limits that were written, and only their own check can refuse them.

  `survivesText` says so for all limits, and which of them can be written at all.
-/

namespace Compositor.Sessions.Limits

open Toml (IsBareKey settingEntry settingLine settingLines)

variable {l : Limits} {kept : List (String × Nat)} {s t : String × Nat}

/-! ## Settings -/

/-- The limits as settings, in the order in which they are written. -/
def settings (l : Limits) : List (String × Nat) :=
  [(inboundKey, l.maxInboundBytes), (fdsKey, l.maxQueuedFds), (staleKey, l.staleIdCapacity),
    (messageKey, l.maxMessageSize)]

/-- The lines of settings, one after the other. -/
def textOf (settings : List (String × Nat)) : String := String.join (settings.map fun s => line s.1 s.2)

/-- Settings of the limits `l` without some that have their default value. -/
structure Abridges (kept : List (String × Nat)) (l : Limits) : Prop where
  sublist : kept.Sublist l.settings
  left : ∀ s ∈ l.settings, s ∉ kept → s ∈ ({} : Limits).settings

theorem Abridges.refl (l : Limits) : Abridges l.settings l :=
  ⟨List.Sublist.refl _, fun _ hs hleft => absurd hs hleft⟩

theorem nodup_keys (l : Limits) : (l.settings.map (·.1)).Nodup := by
  show [inboundKey, fdsKey, staleKey, messageKey].Nodup
  decide

theorem isBareKey_of_mem (hs : s ∈ l.settings) : IsBareKey s.1 := by
  have hkeys : ∀ key ∈ [inboundKey, fdsKey, staleKey, messageKey], IsBareKey key := by
    unfold IsBareKey
    decide
  exact hkeys s.1 (List.mem_map_of_mem (f := (·.1)) hs)

/-- Each key has one setting. -/
theorem eq_of_key_eq (hs : s ∈ l.settings) (ht : t ∈ l.settings) (h : s.1 = t.1) : s = t :=
  List.inj_on_of_nodup_map l.nodup_keys hs ht h

theorem below_iff (l : Limits) (bound : Nat) : (∀ s ∈ l.settings, s.2 < bound) ↔
    l.maxInboundBytes < bound ∧ l.maxQueuedFds < bound ∧ l.staleIdCapacity < bound ∧ l.maxMessageSize < bound := by
  simp [settings]

theorem toList_line (key : String) (n : Nat) : (line key n).toList = settingLine (key, n) := by
  unfold line settingLine Text.decimal
  simp

theorem toList_textOf (kept : List (String × Nat)) : (textOf kept).toList = settingLines kept := by
  induction kept with
  | nil => rfl
  | cons s kept ih =>
    have hjoin : textOf (s :: kept) = line s.1 s.2 ++ textOf kept := by
      unfold textOf
      rw [List.map_cons, String.join_cons]
    rw [hjoin, String.toList_append, toList_line, ih]
    rfl

/-! ## Writing -/

/-- Limits are written if each of them fits the integers of the format, one line each. -/
theorem toText_eq_ok_iff {text : String} :
    l.toText = .ok text ↔ (∀ s ∈ l.settings, s.2 < 0x8000000000000000) ∧ text = textOf l.settings := by
  have htext : textOf l.settings = line inboundKey l.maxInboundBytes ++ line fdsKey l.maxQueuedFds ++
      line staleKey l.staleIdCapacity ++ line messageKey l.maxMessageSize := by
    simp [textOf, settings, String.append_assoc]
  rw [below_iff, htext]
  unfold toText
  split
  case isTrue h => exact ⟨fun hok => ⟨h, (Except.ok.inj hok).symm⟩, fun hok => congrArg _ hok.2.symm⟩
  case isFalse h => exact ⟨fun hok => (nomatch hok), fun hok => absurd hok.1 h⟩

/-! ## Reading -/

/-- Each limit is found again, in its line or as its default. -/
theorem limit?_of_abridges (h : Abridges kept l) (hs : s ∈ l.settings) {default : Nat}
    (hdefault : (s.1, default) ∈ ({} : Limits).settings) :
    limit? (kept.map settingEntry) s.1 default = some s.2 := by
  have hnodup : (kept.map (·.1)).Nodup := (h.sublist.map _).nodup l.nodup_keys
  unfold limit?
  by_cases hkept : s ∈ kept
  · rw [Toml.Entries.get?_setting hnodup hkept]
    exact if_pos (Int.natCast_nonneg _)
  · have habsent : s.1 ∉ kept.map (·.1) := by
      intro hkey
      obtain ⟨t, ht, hkey⟩ := List.mem_map.1 hkey
      exact hkept (eq_of_key_eq (h.sublist.subset ht) hs hkey ▸ ht)
    have hvalue : (s.1, default) = s := eq_of_key_eq hdefault (h.left s hs hkept) rfl
    rw [Toml.Entries.get?_eq_none habsent]
    exact congrArg (fun s => some s.2) hvalue

theorem ofEntries?_of_abridges (h : Abridges kept l) : ofEntries? (kept.map settingEntry) = some l := by
  have hinbound := limit?_of_abridges h (s := (inboundKey, l.maxInboundBytes)) (.head _) (.head _)
  have hfds := limit?_of_abridges h (s := (fdsKey, l.maxQueuedFds)) (.tail _ (.head _)) (.tail _ (.head _))
  have hstale := limit?_of_abridges h (s := (staleKey, l.staleIdCapacity)) (.tail _ (.tail _ (.head _)))
    (.tail _ (.tail _ (.head _)))
  have hmessage := limit?_of_abridges h (s := (messageKey, l.maxMessageSize))
    (.tail _ (.tail _ (.tail _ (.head _)))) (.tail _ (.tail _ (.tail _ (.head _))))
  unfold ofEntries?
  dsimp only at hinbound hfds hstale hmessage ⊢
  rw [hinbound, hfds, hstale, hmessage]
  rfl

/-- What is read are the limits that were written, if they pass their check. -/
theorem ofText_of_abridges (h : Abridges kept l) (hfit : ∀ s ∈ l.settings, s.2 < 0x8000000000000000) :
    ofText (textOf kept) = l.check.map fun () => l := by
  have hkept : ∀ s ∈ kept, s ∈ l.settings := fun s hs => h.sublist.subset hs
  have hentries : Toml.Entries.ofText? (textOf kept) = some (kept.map settingEntry) :=
    Toml.Entries.ofText?_settingLines (toList_textOf kept) (fun s hs => isBareKey_of_mem (hkept s hs))
      (fun s hs => hfit s (hkept s hs)) ((h.sublist.map _).nodup l.nodup_keys)
  unfold ofText
  rw [hentries, Option.bind_some, ofEntries?_of_abridges h]
  dsimp only
  cases l.check <;> rfl

/-- A check that fails names the flaw. -/
theorem check_eq_ok_or (l : Limits) : l.check = .ok () ∨ ∃ flaw, l.check = .error (.invalid flaw) := by
  unfold check
  split
  · exact .inr ⟨_, rfl⟩
  · split
    · exact .inr ⟨_, rfl⟩
    · exact .inl rfl

/-! ## There and back -/

/-- The text form of the limits `l`, and what is read of it. -/
structure SurvivesText (l : Limits) : Prop where
  /-- There is one unless a limit exceeds `2 ^ 63 - 1`, the largest integer of the format. -/
  written : (∃ text, l.toText = .ok text) ↔
    l.maxInboundBytes ≤ 0x7fffffffffffffff ∧ l.maxQueuedFds ≤ 0x7fffffffffffffff ∧
      l.staleIdCapacity ≤ 0x7fffffffffffffff ∧ l.maxMessageSize ≤ 0x7fffffffffffffff
  /-- It has one line for each limit. -/
  lines : ∀ text, l.toText = .ok text → text = textOf l.settings
  /-- If the limits pass their check, the text gives them back, also without lines that only repeat a
  default. -/
  accepted : l.check = .ok () → ∀ text, l.toText = .ok text →
    ofText text = .ok l ∧ ∀ kept, Abridges kept l → ofText (textOf kept) = .ok l
  /-- If they do not, the text is refused for the flaw of the limits. -/
  refused : l.check ≠ .ok () → ∀ text, l.toText = .ok text →
    ∃ flaw, l.check = .error (.invalid flaw) ∧ ofText text = .error (.invalid flaw) ∧
      ∀ kept, Abridges kept l → ofText (textOf kept) = .error (.invalid flaw)

/-- All limits survive their text form, as far as they have one. -/
theorem survivesText (l : Limits) : l.SurvivesText where
  written := by
    constructor
    · rintro ⟨text, htext⟩
      obtain ⟨hinbound, hfds, hstale, hmessage⟩ := (l.below_iff _).1 (toText_eq_ok_iff.1 htext).1
      omega
    · rintro ⟨hinbound, hfds, hstale, hmessage⟩
      refine ⟨textOf l.settings, toText_eq_ok_iff.2 ⟨(l.below_iff _).2 ?_, rfl⟩⟩
      omega
  lines text htext := (toText_eq_ok_iff.1 htext).2
  accepted hcheck text htext := by
    obtain ⟨hfit, rfl⟩ := toText_eq_ok_iff.1 htext
    have hread : ∀ kept, Abridges kept l → ofText (textOf kept) = .ok l := by
      intro kept hkept
      rw [ofText_of_abridges hkept hfit, hcheck]
      rfl
    exact ⟨hread _ (.refl l), hread⟩
  refused hcheck text htext := by
    obtain ⟨hfit, rfl⟩ := toText_eq_ok_iff.1 htext
    obtain hok | ⟨flaw, hflaw⟩ := l.check_eq_ok_or
    · exact absurd hok hcheck
    have hread : ∀ kept, Abridges kept l → ofText (textOf kept) = .error (.invalid flaw) := by
      intro kept hkept
      rw [ofText_of_abridges hkept hfit, hflaw]
      rfl
    exact ⟨flaw, hflaw, hread _ (.refl l), hread⟩

end Compositor.Sessions.Limits
