import Compositor.Proofs.Session.Turns
import Compositor.Proofs.Wire.Extension

/-
  When input arrives does not matter, only what arrives.

  Bytes and descriptors come in pieces, cut and interleaved as the transport likes.  `absorb` is the
  reference: it takes bytes and descriptors at once.  `absorb_append` says that it may as well take them
  in two parts, since a turn that can be taken does not change when more input follows
  (`turn_extend`, `dispatchAll_extend`).  So every schedule of arrivals that stays within the limits
  comes to what `absorb` makes of the whole, and two schedules of the same input come to the same.
-/

namespace Compositor.Sessions

open Compositor.Wire (Descriptor Message ObjectId)

/-! ## Further input -/

/-- The same session with more input behind what it has. -/
def Session.extend {K : Kit} (s : Session K) (bytes : List UInt8) (fds : List Descriptor) : Session K :=
  { s with inbound := s.inbound ++ bytes, fds := s.fds ++ fds }

/-- The same turn with more input behind it. -/
def Turn.extend {K : Kit} (bytes : List UInt8) (fds : List Descriptor) : Turn K → Turn K
  | .idle => .idle
  | .violation v target => .violation v target
  | .request m rest => .request m (rest.extend bytes fds)

namespace Session

section
variable {K : Kit}

theorem extend_extend (s : Session K) (bytes bytes' : List UInt8) (fds fds' : List Descriptor) :
    (s.extend bytes fds).extend bytes' fds' = s.extend (bytes ++ bytes') (fds ++ fds') := by
  unfold extend
  dsimp only
  rw [List.append_assoc, List.append_assoc]

/-- Where there is a turn to take, there is a header, or what should be one. -/
theorem peekHeader_of_turn {s : Session K} (h : s.turn ≠ .idle) :
    Wire.peekHeader s.inbound ≠ .ok none := by
  intro hnone
  apply h
  unfold turn headerViolation? Wire.decode
  rw [hnone]
  split
  · rfl
  · rfl

/-- What can be read off the front of the input stays the same when more follows. -/
theorem decode_extend {s : Session K} {d : Wire.Decoded}
    (h : Wire.decode s.inbound s.fds s.connection.table.resolve = d) (hd : d ≠ .incomplete)
    (bytes : List UInt8) (fds : List Descriptor) :
    Wire.decode (s.extend bytes fds).inbound (s.extend bytes fds).fds
      (s.extend bytes fds).connection.table.resolve = d.withFds fds := by
  subst h
  exact Wire.decode_append hd bytes fds

/-- What a header violates does not depend on what follows it. -/
theorem headerViolation?_extend {s : Session K} (h : Wire.peekHeader s.inbound ≠ .ok none)
    (bytes : List UInt8) (fds : List Descriptor) :
    (s.extend bytes fds).headerViolation? = s.headerViolation? := by
  unfold headerViolation? extend
  dsimp only
  rw [Wire.peekHeader_append h bytes]

/-- A turn that can be taken stays the same when more input follows. -/
theorem turn_extend {s : Session K} (h : s.turn ≠ .idle) (bytes : List UInt8)
    (fds : List Descriptor) : (s.extend bytes fds).turn = s.turn.extend bytes fds := by
  have hpeek := Wire.peekHeader_append (peekHeader_of_turn h) bytes
  have hheader := headerViolation?_extend (peekHeader_of_turn h) bytes fds
  have htarget : (s.extend bytes fds).inboundTarget = s.inboundTarget := by
    unfold inboundTarget extend
    dsimp only
    rw [hpeek]
  cases hturn : s.turn with
  | idle => exact absurd hturn h
  | violation v target =>
    obtain ⟨hopen, hviolation | ⟨hnone, e, hdecode, rfl, rfl⟩⟩ := turn_eq_violation_iff.1 hturn
    · refine turn_eq_violation_iff.2 ⟨hopen, .inl ?_⟩
      rw [hheader]
      exact hviolation
    · refine turn_eq_violation_iff.2 ⟨hopen, .inr ⟨?_, e, ?_, rfl, htarget.symm⟩⟩
      · rw [hheader]
        exact hnone
      · exact decode_extend hdecode nofun bytes fds
  | request m rest =>
    obtain ⟨hopen, hnone, consumed, left, hdecode, rfl⟩ := turn_eq_request_iff.1 hturn
    have hle := (Wire.decode_message_bounds hdecode).2.1
    refine turn_eq_request_iff.2 ⟨hopen, ?_, consumed, left ++ fds, ?_, ?_⟩
    · rw [hheader]
      exact hnone
    · exact decode_extend hdecode nofun bytes fds
    · unfold extend
      dsimp only
      rw [List.drop_append_of_le_length hle]

end

section
variable (app : Application)

/-- Goes on with more input where dispatching has come to rest; a violation is final. -/
def resume (bytes : List UInt8) (fds : List Descriptor) :
    Option (Violation × ObjectId) × Session app.toKit → Option (Violation × ObjectId) × Session app.toKit
  | (some v, s) => (some v, s.extend bytes fds)
  | (none, s) => (s.extend bytes fds).dispatchAll app

/-- Dispatching all of a longer input is dispatching all of its front, and then going on. -/
theorem dispatchAll_extend (s : Session app.toKit) (bytes : List UInt8) (fds : List Descriptor) :
    (s.extend bytes fds).dispatchAll app = resume app bytes fds (s.dispatchAll app) := by
  apply dispatchAll_induction app (motive := fun s r =>
    (s.extend bytes fds).dispatchAll app = resume app bytes fds r)
  · intro s _
    rfl
  · -- what a turn asks for does not depend on the input behind it
    intro s v target hturn
    have hlonger := turn_extend (by rw [hturn]; exact nofun) bytes fds
    rw [hturn] at hlonger
    exact dispatchAll_of_violation app hlonger
  · intro s m rest v connection hturn hdispatch
    have hlonger := turn_extend (by rw [hturn]; exact nofun) bytes fds
    rw [hturn] at hlonger
    exact dispatchAll_of_refused app hlonger hdispatch
  · intro s m rest connection hturn hdispatch ih
    have hlonger := turn_extend (by rw [hturn]; exact nofun) bytes fds
    rw [hturn] at hlonger
    exact (dispatchAll_of_handled app hlonger hdispatch).trans ih

/-! ## Taking input at once -/

/-- Takes bytes and descriptors and dispatches every complete message, whatever the limits of the input.
Gives the violation that stopped the session, if one did. -/
def absorb (s : Session app.toKit) (bytes : List UInt8) (fds : List Descriptor) :
    Option Violation × Session app.toKit :=
  if s.connection.isOpen then
    match (s.extend bytes fds).dispatchAll app with
    | (some (v, target), s) => (some v, (s.fail app v target).2)
    | (none, s) => (none, if s.connection.isOpen then s else { s with inbound := [], fds := [] })
  else (none, s)

theorem absorb_of_not_open {s : Session app.toKit} (h : s.connection.isOpen = false)
    (bytes : List UInt8) (fds : List Descriptor) : s.absorb app bytes fds = (none, s) := by
  unfold absorb
  rw [h]
  rfl

/-- A violation stops the session. -/
theorem not_open_of_absorb {s : Session app.toKit} {bytes : List UInt8} {fds : List Descriptor}
    {v : Violation} (h : (s.absorb app bytes fds).1 = some v) :
    (s.absorb app bytes fds).2.connection.isOpen = false := by
  unfold absorb at h ⊢
  split
  · rename_i hopen
    rw [if_pos hopen] at h
    split
    · exact Connection.isOpen_fail app _ _ _
    · rename_i hall
      rw [hall] at h
      nomatch h
  · rename_i hopen
    exact Bool.eq_false_iff.2 hopen

/-- Two parts may as well be taken one after the other. -/
theorem absorb_append (s : Session app.toKit) (bytes bytes' : List UInt8)
    (fds fds' : List Descriptor) : s.absorb app (bytes ++ bytes') (fds ++ fds') =
      ((s.absorb app bytes fds).1.or ((s.absorb app bytes fds).2.absorb app bytes' fds').1,
        ((s.absorb app bytes fds).2.absorb app bytes' fds').2) := by
  by_cases hopen : s.connection.isOpen
  · have hwhole := dispatchAll_extend app (s.extend bytes fds) bytes' fds'
    rw [extend_extend] at hwhole
    have hfirst : s.absorb app bytes fds =
        match (s.extend bytes fds).dispatchAll app with
        | (some (v, target), s) => (some v, (s.fail app v target).2)
        | (none, s) => (none, if s.connection.isOpen then s else { s with inbound := [], fds := [] }) := by
      unfold absorb
      rw [if_pos hopen]
    have hboth : s.absorb app (bytes ++ bytes') (fds ++ fds') =
        match resume app bytes' fds' ((s.extend bytes fds).dispatchAll app) with
        | (some (v, target), s) => (some v, (s.fail app v target).2)
        | (none, s) => (none, if s.connection.isOpen then s else { s with inbound := [], fds := [] }) := by
      unfold absorb
      rw [if_pos hopen, hwhole]
    rw [hfirst, hboth]
    cases (s.extend bytes fds).dispatchAll app with
    | mk outcome t =>
      cases outcome with
      | some p =>
        -- the violation stops the session, and the rest of the input is dropped
        obtain ⟨v, target⟩ := p
        dsimp only [resume]
        rw [absorb_of_not_open app (Connection.isOpen_fail app _ v target)]
        rfl
      | none =>
        dsimp only [resume]
        by_cases ht : t.connection.isOpen
        · rw [if_pos ht]
          unfold absorb
          rw [if_pos ht]
          cases (t.extend bytes' fds').dispatchAll app with
          | mk outcome u =>
            cases outcome with
            | some p => rfl
            | none => rfl
        · -- a handler has stopped the session, and the rest of the input is dropped
          have hidle : (t.extend bytes' fds').turn = .idle := turn_of_not_open ht
          have hclosed : ({ t with inbound := [], fds := [] } : Session app.toKit).connection.isOpen =
              false := Bool.eq_false_iff.2 ht
          have hstopped := absorb_of_not_open app hclosed bytes' fds'
          rw [if_neg ht, hstopped, dispatchAll_of_idle app hidle]
          dsimp only
          rw [if_neg (show ¬ (t.extend bytes' fds').connection.isOpen from ht)]
          rfl
  · have hclosed := Bool.eq_false_iff.2 hopen
    rw [absorb_of_not_open app hclosed, absorb_of_not_open app hclosed,
      absorb_of_not_open app hclosed]
    rfl

end

/-! ## Schedules -/

/-- A piece of input, as the transport delivers it. -/
inductive Arrival where
  | bytes (data : List UInt8)
  | fds (queue : List Descriptor)
deriving DecidableEq

/-- The bytes of a piece of input. -/
def Arrival.payload : Arrival → List UInt8
  | .bytes data => data
  | .fds _ => []

/-- The descriptors of a piece of input. -/
def Arrival.descriptors : Arrival → List Descriptor
  | .bytes _ => []
  | .fds queue => queue

/-- The violation that a call reports, if any; that the session has stopped is none. -/
def violation? : Except SessionError Unit → Option Violation
  | .error (.violation v) => some v
  | _ => none

/-- Is this the complaint that too much input waits? -/
def isOverflow : Except SessionError Unit → Bool
  | .error (.violation (.inboundOverflow _)) => true
  | .error (.violation (.fdOverflow _)) => true
  | _ => false

section
variable (app : Application)

/-- Feeds a piece of input. -/
def arrive (s : Session app.toKit) : Arrival → Except SessionError Unit × Session app.toKit
  | .bytes data => s.feed app data
  | .fds queue => s.feedFds app queue

/-- Feeds pieces of input in order.  Gives the result of every call. -/
def arriveAll (s : Session app.toKit) : List Arrival →
    List (Except SessionError Unit) × Session app.toKit
  | [] => ([], s)
  | a :: as => ((s.arrive app a).1 :: ((s.arrive app a).2.arriveAll as).1,
      ((s.arrive app a).2.arriveAll as).2)

/-- Dispatching within the limits is what `absorb` does. -/
theorem process_eq_absorb {s : Session app.toKit} {bytes : List UInt8} {fds : List Descriptor}
    (hopen : s.connection.isOpen) (h : isOverflow ((s.extend bytes fds).process app).1 = false) :
    (violation? ((s.extend bytes fds).process app).1, ((s.extend bytes fds).process app).2) =
      s.absorb app bytes fds := by
  unfold absorb
  rw [if_pos hopen]
  rcases process_cases app (s.extend bytes fds) with ⟨v, target, t, hall, hprocess⟩ |
    ⟨t, hall, ⟨hclosed, hprocess⟩ | ⟨-, -, hprocess⟩ | ⟨ht, -, hprocess⟩⟩
  · rw [hprocess, hall]
    rfl
  · rw [hprocess, hall]
    dsimp only
    rw [if_neg (by rw [hclosed]; exact nofun)]
    rfl
  · rw [hprocess] at h
    nomatch h
  · rw [hprocess, hall]
    dsimp only
    rw [if_pos ht]
    rfl

/-- Feeding bytes is processing a longer input. -/
theorem feed_eq_process {s : Session app.toKit} (hopen : s.connection.isOpen) (bytes : List UInt8) :
    s.feed app bytes = (s.extend bytes []).process app := by
  rw [feed_of_open app hopen]
  unfold extend
  rw [List.append_nil]

/-- Within the limits, a piece of input is absorbed. -/
theorem arrive_eq_absorb {s : Session app.toKit} {a : Arrival}
    (h : isOverflow (s.arrive app a).1 = false) :
    (violation? (s.arrive app a).1, (s.arrive app a).2) = s.absorb app a.payload a.descriptors := by
  by_cases hopen : s.connection.isOpen
  · cases a with
    | bytes data =>
      have hfeed : s.arrive app (.bytes data) = (s.extend data []).process app :=
        feed_eq_process app hopen data
      rw [hfeed] at h ⊢
      exact process_eq_absorb app hopen h
    | fds queue =>
      have hfeed : s.arrive app (.fds queue) =
          if s.limits.maxQueuedFds < (s.fds ++ queue).length then
            (s.extend [] queue).fail app (.fdOverflow s.limits.maxQueuedFds) .display
          else (s.extend [] queue).process app := by
        unfold arrive feedFds extend
        rw [requireOpen_of_open hopen, List.append_nil]
      rw [hfeed] at h ⊢
      split
      · rename_i hlimit
        rw [if_pos hlimit] at h
        nomatch h
      · rename_i hlimit
        rw [if_neg hlimit] at h
        exact process_eq_absorb app hopen h
  · have hclosed := Bool.eq_false_iff.2 hopen
    rw [absorb_of_not_open app hclosed]
    cases a with
    | bytes data =>
      unfold arrive feed
      rw [requireOpen_of_not_open hclosed]
      rfl
    | fds queue =>
      unfold arrive feedFds
      rw [requireOpen_of_not_open hclosed]
      rfl

/-- Within the limits, a schedule absorbs all of its input, and reports at most one violation. -/
theorem arriveAll_eq_absorb (a : Arrival) (as : List Arrival) :
    ∀ s : Session app.toKit, (∀ r ∈ (s.arriveAll app (a :: as)).1, isOverflow r = false) →
      (s.arriveAll app (a :: as)).1.filterMap violation? =
        (s.absorb app ((a :: as).flatMap Arrival.payload)
          ((a :: as).flatMap Arrival.descriptors)).1.toList ∧
      (s.arriveAll app (a :: as)).2 =
        (s.absorb app ((a :: as).flatMap Arrival.payload)
          ((a :: as).flatMap Arrival.descriptors)).2 := by
  induction as generalizing a with
  | nil =>
    intro s h
    have harrive := arrive_eq_absorb app (h _ (List.mem_cons_self ..))
    rw [List.flatMap_singleton, List.flatMap_singleton, ← harrive]
    refine ⟨?_, rfl⟩
    unfold arriveAll
    cases hv : violation? (s.arrive app a).1 with
    | none => exact List.filterMap_cons_none hv
    | some v => exact List.filterMap_cons_some hv
  | cons b bs ih =>
    intro s h
    have harrive := arrive_eq_absorb app (h _ (List.mem_cons_self ..))
    obtain ⟨hreports, hfinal⟩ := ih b (s.arrive app a).2 fun r hr => h r (List.mem_cons_of_mem _ hr)
    have hsecond : (s.arrive app a).2 = (s.absorb app a.payload a.descriptors).2 :=
      congrArg Prod.snd harrive
    have hfirst : violation? (s.arrive app a).1 = (s.absorb app a.payload a.descriptors).1 :=
      congrArg Prod.fst harrive
    rw [hsecond] at hreports hfinal
    have happend : s.absorb app ((a :: b :: bs).flatMap Arrival.payload)
        ((a :: b :: bs).flatMap Arrival.descriptors) = _ :=
      absorb_append app s a.payload ((b :: bs).flatMap Arrival.payload) a.descriptors
        ((b :: bs).flatMap Arrival.descriptors)
    rw [happend]
    dsimp only
    refine ⟨?_, ?_⟩
    · show List.filterMap violation? ((s.arrive app a).1 :: _) = _
      rw [hsecond]
      cases hv : (s.absorb app a.payload a.descriptors).1 with
      | none =>
        rw [hv] at hfirst
        rw [List.filterMap_cons_none hfirst, hreports]
        rfl
      | some v =>
        -- after a violation the session has stopped, so nothing more is reported
        rw [absorb_of_not_open app (not_open_of_absorb app hv)] at hreports
        rw [hv] at hfirst
        rw [List.filterMap_cons_some hfirst, hreports]
        rfl
    · show ((s.arrive app a).2.arriveAll app (b :: bs)).2 = _
      rw [hsecond, hfinal]

end

/-- However the same bytes and the same descriptors are cut into pieces, and however the pieces are
interleaved: as long as the limits of the input are kept, the session ends up in the same state, and the
same violation is reported, or none in both. -/
theorem arriveAll_schedule {app : Application} {s : Session app.toKit} {as bs : List Arrival}
    (has : as ≠ []) (hbs : bs ≠ [])
    (hbytes : as.flatMap Arrival.payload = bs.flatMap Arrival.payload)
    (hfds : as.flatMap Arrival.descriptors = bs.flatMap Arrival.descriptors)
    (hlimits : ∀ r ∈ (s.arriveAll app as).1, isOverflow r = false)
    (hlimits' : ∀ r ∈ (s.arriveAll app bs).1, isOverflow r = false) :
    (s.arriveAll app as).2 = (s.arriveAll app bs).2 ∧
      ∃ v : Option Violation, (s.arriveAll app as).1.filterMap violation? = v.toList ∧
        (s.arriveAll app bs).1.filterMap violation? = v.toList := by
  cases as with
  | nil => exact absurd rfl has
  | cons a as =>
    cases bs with
    | nil => exact absurd rfl hbs
    | cons b bs =>
      obtain ⟨hreports, hfinal⟩ := arriveAll_eq_absorb app a as s hlimits
      obtain ⟨hreports', hfinal'⟩ := arriveAll_eq_absorb app b bs s hlimits'
      rw [hbytes, hfds] at hreports hfinal
      exact ⟨hfinal.trans hfinal'.symm, _, hreports, hreports'⟩

/-- A `wl_display.sync` request cut in the middle, the beginning of another, and a descriptor. -/
def sampleArrivals : List Arrival :=
  [.bytes [1, 0, 0, 0, 0, 0, 12, 0], .fds [⟨5, "memory"⟩], .bytes [2, 0, 0, 0, 1, 0]]

/-- The same in two pieces, the descriptor first. -/
def sampleArrivals' : List Arrival :=
  [.fds [⟨5, "memory"⟩], .bytes [1, 0, 0, 0, 0, 0, 12, 0, 2, 0, 0, 0, 1, 0]]

theorem arriveAll_schedule_sample :
    (bare.arriveAll .bare sampleArrivals).2 = (bare.arriveAll .bare sampleArrivals').2 ∧
      ∃ v : Option Violation,
        (bare.arriveAll .bare sampleArrivals).1.filterMap violation? = v.toList ∧
          (bare.arriveAll .bare sampleArrivals').1.filterMap violation? = v.toList :=
  arriveAll_schedule (by decide) (by decide) (by decide) (by decide) (by decide +kernel)
    (by decide +kernel)

end Session

end Compositor.Sessions
