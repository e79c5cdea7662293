import Compositor.Proofs.Object.Slots
import Compositor.Proofs.Session.Outcomes

/-
  The lifetimes of client ids, as the client sees them.

  A client may use an id again once it knows that its object is gone.  So between two objects at the same
  id the deletion must be announced, once, and the announcement must have left the queue; and once it is
  announced no event may speak of the id (`Release`).

  A `Watch` follows one id along a history, together with the bytes that wait in the queue; it stops at
  the first happening that breaks the rules.  `Tracks` ties a watch to a connection.  Every action of a
  connection keeps them in step (`Tracks.apply`), hence every operation and every run
  (`Tracks.performAll`): the watch never stops.  What is left is about histories alone: one that a watch
  accepts has a release between two insertions (`Watch.released_of_live`).
-/

namespace Compositor.Sessions

open Compositor.Wire (Arg Message ObjectId Outbox)
open Compositor.Objects (Fades Object Slot Table)
open Compositor.Protocol (Method Registry)

/-! ## Watching an id -/

/-- Where an id stands in its life. -/
inductive Phase where
  /-- No object, and nothing in the way of a new one. -/
  | free
  | live
  /-- No object any more; its announcement waits in the queue. -/
  | leaving
deriving DecidableEq

/-- Where an id stands, and the bytes that wait in the queue. -/
structure Watch where
  phase : Phase
  waiting : List UInt8

namespace Watch

/-- Follows the id `x` over one happening; `none` if that breaks the rules. -/
def step (x : ObjectId) (w : Watch) : Happening → Option Watch
  | .inserted id =>
    if id = x then if w.phase = .free then some { w with phase := .live } else none else some w
  | .queued m =>
    if m.object = x ∧ w.phase ≠ .live then none else some { w with waiting := w.waiting ++ m.frame }
  | .announced id =>
    if id = x then
      if w.phase = .live then some ⟨.leaving, w.waiting ++ (deletion id).frame⟩ else none
    else some { w with waiting := w.waiting ++ (deletion id).frame }
  | .drained bytes =>
    if bytes = w.waiting then some ⟨if w.phase = .leaving then .free else w.phase, []⟩ else none

/-- Follows the id `x` over a history. -/
def run (x : ObjectId) (w : Watch) : List Happening → Option Watch
  | [] => some w
  | h :: hs => (w.step x h).bind fun w => w.run x hs

theorem run_append (x : ObjectId) (hs hs' : List Happening) (w : Watch) :
    w.run x (hs ++ hs') = (w.run x hs).bind fun w => w.run x hs' := by
  induction hs generalizing w with
  | nil => rfl
  | cons h hs ih =>
    show (w.step x h).bind (fun w => w.run x (hs ++ hs')) =
      ((w.step x h).bind fun w => w.run x hs).bind fun w => w.run x hs'
    rw [Option.bind_assoc]
    congr
    funext w'
    exact ih w'

/-- A watch that gets over a history gets over each of its parts. -/
theorem exists_of_run_append {x : ObjectId} {w w' : Watch} {hs hs' : List Happening}
    (h : w.run x (hs ++ hs') = some w') : ∃ v, w.run x hs = some v ∧ v.run x hs' = some w' := by
  rw [run_append] at h
  exact Option.bind_eq_some_iff.1 h

theorem exists_of_run_cons {x : ObjectId} {w w' : Watch} {h : Happening} {hs : List Happening}
    (hrun : w.run x (h :: hs) = some w') : ∃ v, w.step x h = some v ∧ v.run x hs = some w' :=
  Option.bind_eq_some_iff.1 hrun

end Watch

/-! ## Histories that a watch accepts -/

/-- Does this tell the client something of the id `x`: an event of its object, or its deletion? -/
def Happening.speaksOf (x : ObjectId) : Happening → Bool
  | .queued m => m.object == x
  | .announced id => id == x
  | _ => false

/-- The release of an id: its deletion is announced, and the announcement is drained. -/
structure Release (x : ObjectId) (hs before between : List Happening) (bytes : List UInt8)
    (after : List Happening) : Prop where
  eq : hs = before ++ .announced x :: (between ++ .drained bytes :: after)
  /-- It is announced only here. -/
  once : .announced x ∉ before ++ between ++ after
  /-- From the announcement on no event is queued for its object. -/
  silent : ∀ m, .queued m ∈ between ++ after → m.object ≠ x
  /-- The announcement is among the bytes that are handed over. -/
  carries : ∃ ahead, bytes = ahead ++ (deletion x).frame ++ between.flatMap Happening.frame

namespace Watch

variable {x : ObjectId} {w v : Watch} {h : Happening}

/-- A free id stays free, and nothing is said of it, until an object is inserted at it. -/
theorem step_of_free (hfree : w.phase = .free) (hne : h ≠ .inserted x) (hstep : w.step x h = some v) :
    v.phase = .free ∧ h.speaksOf x = false := by
  cases h with
  | inserted id =>
    have hid : id ≠ x := fun heq => hne (congrArg Happening.inserted heq)
    rw [step, if_neg hid] at hstep
    injection hstep with hstep
    rw [← hstep]
    exact ⟨hfree, rfl⟩
  | queued m =>
    rw [step] at hstep
    split at hstep
    · nomatch hstep
    · rename_i hobject
      injection hstep with hstep
      rw [← hstep]
      refine ⟨hfree, beq_false_of_ne fun heq => hobject ⟨heq, ?_⟩⟩
      rw [hfree]
      exact nofun
  | announced id =>
    rw [step] at hstep
    split at hstep
    · rw [if_neg (by rw [hfree]; exact nofun)] at hstep
      nomatch hstep
    · rename_i hid
      injection hstep with hstep
      rw [← hstep]
      exact ⟨hfree, beq_false_of_ne hid⟩
  | drained bytes =>
    rw [step] at hstep
    split at hstep
    · injection hstep with hstep
      rw [← hstep, hfree]
      exact ⟨rfl, rfl⟩
    · nomatch hstep

/-- An id that is leaving waits for its announcement to be drained, and nothing more is said of it. -/
theorem step_of_leaving (hleaving : w.phase = .leaving) (hstep : w.step x h = some v) :
    (h = .drained w.waiting ∧ v.phase = .free) ∨
      (v = ⟨.leaving, w.waiting ++ h.frame⟩ ∧ h.speaksOf x = false) := by
  cases h with
  | inserted id =>
    rw [step] at hstep
    split at hstep
    · rw [if_neg (by rw [hleaving]; exact nofun)] at hstep
      nomatch hstep
    · injection hstep with hstep
      right
      rw [← hstep, ← hleaving]
      refine ⟨?_, rfl⟩
      show w = ⟨w.phase, w.waiting ++ []⟩
      rw [List.append_nil]
  | queued m =>
    rw [step] at hstep
    split at hstep
    · nomatch hstep
    · rename_i hobject
      injection hstep with hstep
      right
      rw [← hstep, hleaving]
      refine ⟨rfl, beq_false_of_ne fun heq => hobject ⟨heq, ?_⟩⟩
      rw [hleaving]
      exact nofun
  | announced id =>
    rw [step] at hstep
    split at hstep
    · rw [if_neg (by rw [hleaving]; exact nofun)] at hstep
      nomatch hstep
    · rename_i hid
      injection hstep with hstep
      right
      rw [← hstep, hleaving]
      exact ⟨rfl, beq_false_of_ne hid⟩
  | drained bytes =>
    rw [step] at hstep
    split at hstep
    · rename_i heq
      injection hstep with hstep
      left
      rw [heq, ← hstep]
      exact ⟨rfl, rfl⟩
    · nomatch hstep

/-- A live id stays live until its deletion is announced. -/
theorem step_of_live (hlive : w.phase = .live) (hstep : w.step x h = some v) :
    (h = .announced x ∧ v = ⟨.leaving, w.waiting ++ (deletion x).frame⟩) ∨
      (h ≠ .announced x ∧ v.phase = .live) := by
  cases h with
  | inserted id =>
    rw [step] at hstep
    split at hstep
    · rw [if_neg (by rw [hlive]; exact nofun)] at hstep
      nomatch hstep
    · injection hstep with hstep
      right
      rw [← hstep]
      exact ⟨nofun, hlive⟩
  | queued m =>
    rw [step] at hstep
    split at hstep
    · nomatch hstep
    · injection hstep with hstep
      right
      rw [← hstep]
      exact ⟨nofun, hlive⟩
  | announced id =>
    rw [step] at hstep
    split at hstep
    · rename_i hid
      subst hid
      injection hstep with hstep
      exact .inl ⟨rfl, hstep.symm⟩
    · rename_i hid
      injection hstep with hstep
      right
      rw [← hstep]
      refine ⟨fun heq => ?_, hlive⟩
      injection heq with heq
      exact hid heq
  | drained bytes =>
    rw [step] at hstep
    split at hstep
    · injection hstep with hstep
      right
      rw [← hstep, hlive]
      exact ⟨nofun, rfl⟩
    · nomatch hstep

/-- Nothing is said of a free id as long as no object is inserted at it. -/
theorem silent_of_free {hs : List Happening} : ∀ {w w' : Watch}, w.phase = .free →
    .inserted x ∉ hs → w.run x hs = some w' → ∀ h ∈ hs, h.speaksOf x = false := by
  induction hs with
  | nil =>
    intro w w' _ _ _ h hh
    nomatch hh
  | cons h hs ih =>
    intro w w' hfree hnot hrun
    obtain ⟨v, hstep, hrest⟩ := exists_of_run_cons hrun
    have hne : h ≠ .inserted x := by
      rintro rfl
      exact hnot (List.mem_cons_self ..)
    obtain ⟨hv, hsilent⟩ := step_of_free hfree hne hstep
    have hafter := ih hv (fun hm => hnot (List.mem_cons_of_mem h hm)) hrest
    intro h' hh'
    rcases List.mem_cons.1 hh' with rfl | hh'
    · exact hsilent
    · exact hafter h' hh'

/-- An id that is leaving at first and free in the end was drained in between. -/
theorem drained_of_leaving {hs : List Happening} : ∀ {w w' : Watch}, w.phase = .leaving →
    .inserted x ∉ hs → w.run x hs = some w' → w'.phase = .free →
      ∃ between after, hs = between ++ .drained (w.waiting ++ between.flatMap Happening.frame) :: after ∧
        ∀ h ∈ between ++ after, h.speaksOf x = false := by
  induction hs with
  | nil =>
    intro w w' hleaving _ hrun hfree
    injection hrun with hrun
    rw [hrun, hfree] at hleaving
    nomatch hleaving
  | cons h hs ih =>
    intro w w' hleaving hnot hrun hfree
    obtain ⟨v, hstep, hrest⟩ := exists_of_run_cons hrun
    have hnot' : .inserted x ∉ hs := fun hm => hnot (List.mem_cons_of_mem h hm)
    rcases step_of_leaving hleaving hstep with ⟨rfl, hv⟩ | ⟨rfl, hsilent⟩
    · refine ⟨[], hs, ?_, fun h' hh' => silent_of_free hv hnot' hrest h' hh'⟩
      rw [List.flatMap_nil, List.append_nil]
      rfl
    · obtain ⟨between, after, heq, hafter⟩ := ih rfl hnot' hrest hfree
      refine ⟨h :: between, after, ?_, ?_⟩
      · rw [heq, List.flatMap_cons, List.append_assoc]
        rfl
      · intro h' hh'
        rcases List.mem_cons.1 hh' with rfl | hh'
        · exact hsilent
        · exact hafter h' hh'

/-- An id that is live at first and free in the end was released in between. -/
theorem released_of_live {hs : List Happening} : ∀ {w w' : Watch}, w.phase = .live →
    .inserted x ∉ hs → w.run x hs = some w' → w'.phase = .free →
      ∃ before between bytes after, Release x hs before between bytes after := by
  induction hs with
  | nil =>
    intro w w' hlive _ hrun hfree
    injection hrun with hrun
    rw [hrun, hfree] at hlive
    nomatch hlive
  | cons h hs ih =>
    intro w w' hlive hnot hrun hfree
    obtain ⟨v, hstep, hrest⟩ := exists_of_run_cons hrun
    have hnot' : .inserted x ∉ hs := fun hm => hnot (List.mem_cons_of_mem h hm)
    rcases step_of_live hlive hstep with ⟨rfl, rfl⟩ | ⟨hne, hv⟩
    · obtain ⟨between, after, heq, hsilent⟩ := drained_of_leaving rfl hnot' hrest hfree
      refine ⟨[], between, _, after, ⟨?_, ?_, ?_, ⟨w.waiting, rfl⟩⟩⟩
      · rw [heq]
        rfl
      · intro hm
        have := hsilent _ hm
        rw [Happening.speaksOf, beq_self_eq_true] at this
        nomatch this
      · intro m hm
        exact ne_of_beq_false (hsilent _ hm)
    · obtain ⟨before, between, bytes, after, hr⟩ := ih hv hnot' hrest hfree
      refine ⟨h :: before, between, bytes, after, ⟨?_, ?_, hr.silent, hr.carries⟩⟩
      · rw [hr.eq]
        rfl
      · intro hm
        rcases List.mem_cons.1 hm with heq | hm
        · exact hne heq.symm
        · exact hr.once hm

/-- An object is inserted at a free id, which is live then. -/
theorem live_of_inserted (hstep : w.step x (.inserted x) = some v) :
    w.phase = .free ∧ v.phase = .live := by
  rw [step, if_pos rfl] at hstep
  split at hstep
  · rename_i hfree
    injection hstep with hstep
    rw [← hstep]
    exact ⟨hfree, rfl⟩
  · nomatch hstep

theorem run_singleton (x : ObjectId) (w : Watch) (h : Happening) : w.run x [h] = w.step x h :=
  Option.bind_fun_some (w.step x h)

end Watch

/-! ## Watches and connections -/

/-- What the place of the id `x` in its life means for the table. -/
def Phase.Agrees {α : Type} (x : ObjectId) (t : Table α) : Phase → Prop
  | .free => ∀ o, t.slot x ≠ some (.live o)
  | .live => ∃ o, t.slot x = some (.live o)
  | .leaving => t.slot x = some (.stale false)

namespace Phase.Agrees

variable {α : Type} {x : ObjectId} {t t' : Table α} {p : Phase}

theorem eq_live {o : Object α} (h : p.Agrees x t) (hlive : t.slot x = some (.live o)) : p = .live := by
  cases p with
  | free => exact absurd hlive (h o)
  | live => rfl
  | leaving =>
    rw [Phase.Agrees, hlive] at h
    nomatch h

theorem eq_free (h : p.Agrees x t) (hfree : t.slot x = none ∨ t.slot x = some (.stale true)) :
    p = .free := by
  cases p with
  | free => rfl
  | live =>
    obtain ⟨o, ho⟩ := h
    rcases hfree with hfree | hfree
    · rw [ho] at hfree
      nomatch hfree
    · rw [ho] at hfree
      nomatch hfree
  | leaving =>
    rw [Phase.Agrees] at h
    rcases hfree with hfree | hfree
    · rw [h] at hfree
      nomatch hfree
    · rw [h] at hfree
      nomatch hfree

/-- The expiry of an acknowledged marker makes no difference. -/
theorem fades (h : p.Agrees x t) (hfades : Fades (t.slot x) (t'.slot x)) : p.Agrees x t' := by
  rcases hfades with hsame | ⟨hstale, hnone⟩
  · cases p with
    | free =>
      intro o
      rw [hsame]
      exact h o
    | live =>
      obtain ⟨o, ho⟩ := h
      exact ⟨o, by rw [hsame, ho]⟩
    | leaving => exact hsame.trans h
  · obtain rfl := h.eq_free (.inr hstale)
    intro o
    rw [hnone]
    exact nofun

/-- Nor do changes to live objects. -/
theorem modify (h : p.Agrees x t) (id : ObjectId) (f : Object α → Object α) :
    p.Agrees x (t.modify id f) := by
  have hslot := t.slot_modify id f x
  cases p with
  | free =>
    intro o
    rw [hslot]
    split
    · rename_i o' ho'
      exact absurd ho' (h o')
    · exact h o
  | live =>
    obtain ⟨o, ho⟩ := h
    rw [ho] at hslot
    exact ⟨_, hslot⟩
  | leaving =>
    rw [Phase.Agrees] at h
    rw [h] at hslot
    exact hslot

end Phase.Agrees

/-- A watch is in step with a connection: the same bytes wait, and as long as the connection is open the
id stands where the table says. -/
structure Tracks {K : Kit} (x : ObjectId) (w : Watch) (c : Connection K) : Prop where
  room : 12 ≤ c.outbound.limit
  waiting : w.waiting = c.outbound.bytes
  tidy : c.isOpen → c.table.Tidy
  agrees : c.isOpen → w.phase.Agrees x c.table

namespace Tracks

section
variable {K : Kit} {x : ObjectId} {w : Watch} {c c' : Connection K}

/-- What concerns neither the queue nor the table makes no difference. -/
theorem of_eq (h : Tracks x w c) (houtbound : c'.outbound = c.outbound) (htable : c'.table = c.table)
    (hstate : c'.state = c.state) : Tracks x w c' := by
  have hopen : c'.isOpen = c.isOpen := by
    unfold Connection.isOpen
    rw [hstate]
  refine ⟨?_, ?_, ?_, ?_⟩
  · rw [houtbound]
    exact h.room
  · rw [houtbound]
    exact h.waiting
  · rw [hopen, htable]
    exact h.tidy
  · rw [hopen, htable]
    exact h.agrees

theorem modify (h : Tracks x w c) (id : ObjectId)
    (f : Object (Implementation K.Handler) → Object (Implementation K.Handler)) :
    Tracks x w { c with table := c.table.modify id f } :=
  ⟨h.room, h.waiting, fun hopen => Table.tidy_modify (h.tidy hopen) id f,
    fun hopen => (h.agrees hopen).modify id f⟩

/-- Insertions elsewhere make no difference. -/
theorem insert_other (h : Tracks x w c) {side : Wire.Side} {id : ObjectId}
    {o : Object (Implementation K.Handler)} {handle : Objects.Handle}
    {table : Table (Implementation K.Handler)}
    (hinsert : c.table.insert side id o = .ok (handle, table)) (hne : id ≠ x) :
    Tracks x w { c with table } := by
  refine ⟨h.room, h.waiting, fun hopen => Table.tidy_insert (h.tidy hopen) hinsert,
    fun hopen => (h.agrees hopen).fades ?_⟩
  left
  rw [Table.slot_insert hinsert, if_neg (Ne.symm hne)]

/-- An object can be inserted at the id only where it is free. -/
theorem insert_self (h : Tracks x w c) (hopen : c.isOpen) {side : Wire.Side}
    {o : Object (Implementation K.Handler)} {handle : Objects.Handle}
    {table : Table (Implementation K.Handler)}
    (hinsert : c.table.insert side x o = .ok (handle, table)) :
    w.phase = .free ∧ Tracks x { w with phase := .live } { c with table } := by
  have hlive := Table.slot_insert hinsert x
  rw [if_pos rfl] at hlive
  exact ⟨(h.agrees hopen).eq_free (Table.slot_of_insert hinsert).2, h.room, h.waiting,
    fun hopen => Table.tidy_insert (h.tidy hopen) hinsert, fun _ => ⟨_, hlive⟩⟩

/-- Events are queued for live objects only. -/
theorem queue (h : Tracks x w c) {id : ObjectId} {opcode : UInt16} {args : List Arg} {m : Method}
    {outbound : Outbox} (henc : c.encodeEvent id opcode args = .ok (m, outbound)) :
    ∃ w', w.step x (.queued ⟨id, opcode, args⟩) = some w' ∧ Tracks x w' { c with outbound } := by
  obtain ⟨hopen, object, hobject, -, -, -, hpush⟩ := Connection.encodeEvent_eq_ok_iff.1 henc
  obtain ⟨-, rfl⟩ := (Outbox.push_eq_ok_iff _ _ _).1 hpush
  have hphase : ¬ (id = x ∧ w.phase ≠ .live) := by
    rintro ⟨rfl, hne⟩
    exact hne ((h.agrees hopen).eq_live (Table.get_eq_ok_iff.1 hobject))
  refine ⟨_, if_neg hphase, h.room, ?_, h.tidy, h.agrees⟩
  rw [Outbox.bytes_append, ← h.waiting]

/-- A deletion is announced for live objects only, and leaves the id waiting. -/
theorem destroy_client (h : Tracks x w c) (hopen : c.isOpen) {id : ObjectId} (hid : id.side = .client)
    {o : Object (Implementation K.Handler)} {table : Table (Implementation K.Handler)}
    (hremove : c.table.remove id = .ok (o, table)) :
    ∃ w', w.step x (.announced id) = some w' ∧
      Tracks x w' (Connection.announced { c with table } id) := by
  have hlive := (Table.remove_eq_ok_iff.1 hremove).1
  have hbytes := c.outbound.bytes_append (deletion id)
  unfold Connection.announced
  rw [if_pos hid]
  by_cases hx : id = x
  · subst hx
    have hphase := (h.agrees hopen).eq_live hlive
    refine ⟨⟨.leaving, w.waiting ++ (deletion id).frame⟩, ?_, h.room, ?_, fun hopen =>
      Table.tidy_remove (h.tidy hopen) hremove, fun hopen => ?_⟩
    · rw [Watch.step, if_pos rfl, if_pos hphase]
    · rw [hbytes, ← h.waiting]
    · have hfades := Table.slot_remove (h.tidy hopen) hremove id
      have hserver : (id.side == Wire.Side.server) = false := by
        rw [hid]
        rfl
      rw [if_pos rfl, hserver] at hfades
      -- an unacknowledged marker does not expire
      rcases hfades with hsame | ⟨hstale, -⟩
      · exact hsame
      · nomatch hstale
  · -- at other ids an acknowledged marker may expire, and that is all
    refine ⟨{ w with waiting := w.waiting ++ (deletion id).frame }, ?_, h.room, ?_, fun hopen =>
      Table.tidy_remove (h.tidy hopen) hremove, fun hopen => (h.agrees hopen).fades ?_⟩
    · rw [Watch.step, if_neg hx]
    · rw [hbytes, ← h.waiting]
    · have hfades := Table.slot_remove (h.tidy hopen) hremove x
      rw [if_neg (Ne.symm hx)] at hfades
      exact hfades

/-- Deletions of server ids are not announced. -/
theorem destroy_server (h : Tracks x w c) (hx : x.side = .client) {id : ObjectId}
    (hid : id.side ≠ .client) {o : Object (Implementation K.Handler)}
    {table : Table (Implementation K.Handler)} (hremove : c.table.remove id = .ok (o, table)) :
    Tracks x w (Connection.announced { c with table } id) := by
  have hne : x ≠ id := by
    rintro rfl
    exact hid hx
  unfold Connection.announced
  rw [if_neg hid]
  refine ⟨h.room, h.waiting, fun hopen => Table.tidy_remove (h.tidy hopen) hremove,
    fun hopen => (h.agrees hopen).fades ?_⟩
  have hfades := Table.slot_remove (h.tidy hopen) hremove x
  rw [if_neg hne] at hfades
  exact hfades

/-- Once all that waits is handed over, an id that was leaving is free. -/
theorem drain (h : Tracks x w c) : ∃ w', w.step x (.drained c.takeOutbound.1) = some w' ∧
    Tracks x w' c.takeOutbound.2 := by
  obtain ⟨hsame, -⟩ := Table.acknowledgeAll_keeps c.pendingAcks c.table
  have hopen : c.takeOutbound.2.isOpen = c.isOpen := by
    show ((if c.state = .closing then Lifecycle.closed else c.state) == .open) = (c.state == .open)
    cases c.state with
    | «open» => rfl
    | closing => rfl
    | closed => rfl
  have hlive : ∀ o, c.takeOutbound.2.table.slot x = some (.live o) ↔ c.table.slot x = some (.live o) := by
    intro o
    rw [Table.slot_eq_live_iff, Table.slot_eq_live_iff]
    show Objects.Directory.get? x (c.pendingAcks.foldl _ c.table).objects = _ ↔ _
    rw [hsame]
  refine ⟨_, if_pos h.waiting.symm, h.room, rfl, ?_, ?_⟩
  · rw [hopen]
    exact fun hopen => Table.tidy_acknowledgeAll c.pendingAcks (h.tidy hopen)
  · rw [hopen]
    intro hopen
    have hagrees := h.agrees hopen
    cases hphase : w.phase with
    | free =>
      rw [hphase] at hagrees
      exact fun o ho => hagrees o ((hlive o).1 ho)
    | live =>
      rw [hphase] at hagrees
      obtain ⟨o, ho⟩ := hagrees
      exact ⟨o, (hlive o).2 ho⟩
    | leaving =>
      -- a marker, acknowledged or expired by now, is no object
      rw [hphase] at hagrees
      intro o ho
      have hslot := (hlive o).1 ho
      rw [Phase.Agrees] at hagrees
      rw [hagrees] at hslot
      nomatch hslot

end

/-- A connection that stops keeps what is queued. -/
theorem close {app : Application} {x : ObjectId} {w : Watch} {c : Connection app.toKit}
    (h : Tracks x w c) : Tracks x w (c.close app) := by
  have hclosed := Connection.isOpen_close app c
  have hqueue : (c.close app).outbound = c.outbound := by
    unfold Connection.close
    split
    · rfl
    · rfl
  refine ⟨?_, ?_, ?_, ?_⟩
  · rw [hqueue]
    exact h.room
  · rw [hqueue]
    exact h.waiting
  · rw [hclosed]
    exact nofun
  · rw [hclosed]
    exact nofun

/-! ## Every action keeps the watch in step -/

section
variable {app : Application} {x : ObjectId} {w : Watch} {c : Connection app.toKit}

/-- Where nothing happens, the watch stays as it is. -/
theorem exists_of_quiet {c' : Connection app.toKit} (h : Tracks x w c') :
    ∃ w', w.run x [] = some w' ∧ Tracks x w' c' := ⟨w, rfl, h⟩

theorem insert (h : Tracks x w c) (hopen : c.isOpen) {side : Wire.Side} {id : ObjectId}
    {o : Object (Implementation app.Handler)} {handle : Objects.Handle}
    {table : Table (Implementation app.Handler)}
    (hinsert : c.table.insert side id o = .ok (handle, table)) :
    ∃ w', w.run x [.inserted id] = some w' ∧ Tracks x w' { c with table } := by
  rw [Watch.run_singleton, Watch.step]
  by_cases hx : id = x
  · subst hx
    obtain ⟨hfree, hlive⟩ := h.insert_self hopen hinsert
    rw [if_pos rfl, if_pos hfree]
    exact ⟨_, rfl, hlive⟩
  · rw [if_neg hx]
    exact ⟨w, rfl, h.insert_other hinsert hx⟩

theorem destroy (h : Tracks x w c) (hx : x.side = .client) (id : ObjectId) :
    ∃ w', w.run x (Action.happenings app (.destroy id) c) = some w' ∧ Tracks x w' (c.destroy app id).2 := by
  unfold Action.happenings
  dsimp only
  rcases Connection.destroy_cases app h.room id with
    ⟨e, heq⟩ | ⟨o, table, hopen, -, hremove, heq⟩
  · rw [heq]
    exact exists_of_quiet h
  · rw [heq]
    dsimp only
    by_cases hid : id.side = .client
    · obtain ⟨w', hstep, hw'⟩ := h.destroy_client hopen hid hremove
      rw [if_pos hid, Watch.run_singleton]
      exact ⟨w', hstep, hw'.of_eq rfl rfl rfl⟩
    · rw [if_neg hid]
      exact exists_of_quiet ((h.destroy_server hx hid hremove).of_eq rfl rfl rfl)

/-- However an action turns out, a watch of a client id stays in step. -/
theorem outcome (h : Tracks x w c) (hx : x.side = .client) {a : Action app.toKit} {c' : Connection app.toKit}
    {hs : List Happening} (houtcome : a.Outcome app c c' hs) :
    ∃ w', w.run x hs = some w' ∧ Tracks x w' c' := by
  cases houtcome with
  | aside => exact exists_of_quiet (h.of_eq rfl rfl rfl)
  | queued hencode =>
    rw [Watch.run_singleton]
    exact h.queue hencode
  | destroyed => exact h.destroy hx _
  | created hopen _ hinsert => exact h.insert hopen hinsert
  | inserted hopen _ hinsert => exact h.insert hopen hinsert
  | bound _ _ => exact exists_of_quiet (h.modify _ _)
  | taken _ => exact exists_of_quiet (h.modify _ _)
  | returned _ _ => exact exists_of_quiet (h.modify _ _)
  | withdrawn => exact exists_of_quiet (h.of_eq rfl rfl rfl)
  | closed => exact exists_of_quiet h.close
  | drained =>
    rw [Watch.run_singleton]
    exact h.drain
  | fdsDrained => exact exists_of_quiet ⟨h.room, h.waiting, h.tidy, h.agrees⟩

end

/-- Every action keeps a watch of a client id in step with the connection. -/
theorem apply {app : Application} {x : ObjectId} {w : Watch} {c : Connection app.toKit}
    (h : Tracks x w c) (hx : x.side = .client) (a : Action app.toKit) :
    ∃ w', w.run x (a.happenings app c) = some w' ∧ Tracks x w' (a.apply app c) :=
  h.outcome hx (a.outcome c)

/-- Actions one after the other keep it in step. -/
theorem replay {app : Application} {x : ObjectId} (hx : x.side = .client)
    (as : List (Action app.toKit)) : ∀ {w : Watch} {c : Connection app.toKit}, Tracks x w c →
      ∃ w', w.run x (happenings app as c) = some w' ∧ Tracks x w' (Sessions.replay app as c) := by
  induction as with
  | nil =>
    intro w c h
    exact exists_of_quiet h
  | cons a as ih =>
    intro w c h
    obtain ⟨v, hrun, hv⟩ := h.apply hx a
    obtain ⟨w', hrun', hw'⟩ := ih hv
    refine ⟨w', ?_, hw'⟩
    rw [happenings, Watch.run_append, hrun]
    exact hrun'

/-- Operations one after the other keep it in step. -/
theorem performAll {app : Application} {x : ObjectId} (hx : x.side = .client)
    (ops : List (Operation app.toKit)) : ∀ {w : Watch} {s : Session app.toKit},
      Tracks x w s.connection → ∃ w', w.run x (s.events app ops) = some w' ∧
        Tracks x w' (s.performAll app ops).connection := by
  induction ops with
  | nil =>
    intro w s h
    exact exists_of_quiet h
  | cons op ops ih =>
    intro w s h
    obtain ⟨v, hrun, hv⟩ := replay hx (op.actions app s) h
    -- after its actions the connection is where the operation has left it
    rw [Operation.replay_perform] at hv
    obtain ⟨w', hrun', hw'⟩ := ih hv
    refine ⟨w', ?_, hw'⟩
    rw [Session.events, Watch.run_append, hrun]
    exact hrun'

/-- A watch that is set up before a session is opened is in step with it. -/
theorem new {K : Kit} {client : Nat} {registry : Registry} {globals : Globals K.Binder}
    {limits : Limits} {world : K.World} {s : Session K} (x : ObjectId)
    (hnew : Session.new client registry globals limits world = .ok s)
    (hroom : 12 ≤ limits.maxMessageSize) :
    ∃ w, (Watch.mk .free []).step x (.inserted .display) = some w ∧ Tracks x w s.connection := by
  obtain ⟨_, handle, table, -, hinsert, rfl⟩ := Session.exists_of_new hnew
  have htidy := Table.tidy_insert (Table.tidy_empty limits.staleIdCapacity) hinsert
  have hslot := Table.slot_insert hinsert x
  have hlimit : 12 ≤ min limits.maxMessageSize Wire.maxMessageSize := by
    unfold Wire.maxMessageSize
    omega
  rw [Watch.step]
  by_cases hx : ObjectId.display = x
  · rw [if_pos hx.symm] at hslot
    rw [if_pos hx, if_pos rfl]
    exact ⟨_, rfl, hlimit, rfl, fun _ => htidy, fun _ => ⟨_, hslot⟩⟩
  · rw [if_neg (Ne.symm hx)] at hslot
    rw [if_neg hx]
    refine ⟨_, rfl, hlimit, rfl, fun _ => htidy, fun _ o ho => ?_⟩
    rw [show table.slot x = some (.live o) from ho] at hslot
    nomatch hslot

end Tracks

/-! ## Client ids -/

/-- In every run of a session, between two consecutive insertions at a client id the deletion of the id is
announced exactly once, no event is queued for it from then on, and the announcement is drained. -/
theorem release_between_insertions {app : Application} {client : Nat} {registry : Registry}
    {globals : Globals app.Binder} {limits : Limits} {world : app.World} {s : Session app.toKit}
    (hnew : Session.new client registry globals limits world = .ok s)
    (hroom : 12 ≤ limits.maxMessageSize) (ops : List (Operation app.toKit)) {x : ObjectId}
    (hx : x.side = .client) {start mid rest : List Happening}
    (hhistory : s.history app ops = start ++ .inserted x :: (mid ++ .inserted x :: rest))
    (hmid : .inserted x ∉ mid) :
    ∃ before between bytes after, Release x mid before between bytes after := by
  obtain ⟨w, hstep, hw⟩ := Tracks.new x hnew hroom
  obtain ⟨w', hrun, -⟩ := Tracks.performAll hx ops hw
  have hall : (Watch.mk .free []).run x (s.history app ops) = some w' := by
    show ((Watch.mk .free []).step x (.inserted .display)).bind _ = _
    rw [hstep]
    exact hrun
  -- up to the first insertion, through it, through the middle, and through the second one
  rw [hhistory] at hall
  obtain ⟨w1, -, hall⟩ := Watch.exists_of_run_append hall
  obtain ⟨w2, hinserted, hall⟩ := Watch.exists_of_run_cons hall
  obtain ⟨w3, hmidrun, hall⟩ := Watch.exists_of_run_append hall
  obtain ⟨w4, hinserted', -⟩ := Watch.exists_of_run_cons hall
  exact Watch.released_of_live (Watch.live_of_inserted hinserted).2 hmid hmidrun
    (Watch.live_of_inserted hinserted').1

/-- A client id for callbacks. -/
def sampleId : ObjectId := ⟨2, by decide⟩

/-- A client that asks for a round trip twice with the same id, its answers drained in between. -/
def sampleRun : List (Operation Application.bare.toKit) :=
  [.dispatch ⟨.display, Protocol.Core.syncOpcode, [.newId sampleId]⟩, .drainOutbound,
    .dispatch ⟨.display, Protocol.Core.syncOpcode, [.newId sampleId]⟩]

theorem release_between_insertions_sample :
    ∃ before between bytes after, Release sampleId
      [.queued ⟨sampleId, Protocol.Core.doneOpcode, [.uint 1]⟩, .announced sampleId,
        .drained [2, 0, 0, 0, 0, 0, 12, 0, 1, 0, 0, 0, 1, 0, 0, 0, 1, 0, 12, 0, 2, 0, 0, 0]]
      before between bytes after := by
  have hhistory : Session.bare.history .bare sampleRun = [.inserted .display] ++ .inserted sampleId ::
      ([.queued ⟨sampleId, Protocol.Core.doneOpcode, [.uint 1]⟩, .announced sampleId,
        .drained [2, 0, 0, 0, 0, 0, 12, 0, 1, 0, 0, 0, 1, 0, 0, 0, 1, 0, 12, 0, 2, 0, 0, 0]] ++
        .inserted sampleId ::
          [.queued ⟨sampleId, Protocol.Core.doneOpcode, [.uint 2]⟩, .announced sampleId]) := rfl
  exact release_between_insertions Session.new_bare (by decide) sampleRun rfl hhistory (by decide)

end Compositor.Sessions
