import Compositor.Proofs.Wire.Reading

/-
  Whole streams come back as they went out.

  The writer appends messages to its queue one by one (`Outbox.pushAll`), the reader takes them off the
  front of its buffer one by one (`readings`).  What was appended is read in order, each message from
  exactly the bytes that were appended for it and with exactly its own descriptors, and what follows
  the stream is left alone.
-/

namespace Compositor.Wire

/-! ## Writing and reading one after the other -/

/-- Appends messages in order.  Gives the bytes by which each of them made the queue longer. -/
def Outbox.pushAll (o : Outbox) : List Message → Except Error (List (List UInt8) × Outbox)
  | [] => .ok ([], o)
  | m :: ms =>
    match o.push m with
    | .error e => .error e
    | .ok p =>
      match p.pushAll ms with
      | .error e => .error e
      | .ok (added, q) => .ok (p.bytes.drop o.bytes.length :: added, q)

/-- Reads `n` messages off the front of a buffer.  Gives each of them with the bytes that it used, and
the bytes and descriptors that are left after the last. -/
def readings (resolve : Resolver) : (n : Nat) → List UInt8 → List Descriptor →
    Option (List (Message × List UInt8) × List UInt8 × List Descriptor)
  | 0, buffer, fds => some ([], buffer, fds)
  | n + 1, buffer, fds =>
    match decode buffer fds resolve with
    | .message m consumed left =>
      (readings resolve n (buffer.drop consumed) left).map fun (ms, rest) =>
        ((m, buffer.take consumed) :: ms, rest)
    | _ => none

/-! ## What is appended -/

/-- What a queue holds after messages were appended to it: their frames and their descriptors, none of
them faulty. -/
structure Outbox.Holds (o : Outbox) (ms : List Message) (added : List (List UInt8)) (p : Outbox) :
    Prop where
  sound : ∀ m ∈ ms, m.fault? o.limit = none
  added_eq : added = ms.map Message.frame
  bytes_eq : p.bytes = o.bytes ++ ms.flatMap Message.frame
  fds_eq : p.fds = o.fds ++ ms.flatMap Message.descriptors

theorem Outbox.holds_of_pushAll {o p : Outbox} {ms : List Message} {added : List (List UInt8)}
    (h : o.pushAll ms = .ok (added, p)) : o.Holds ms added p := by
  induction ms generalizing o added with
  | nil =>
    injection h with h
    injection h with ha hp
    subst ha hp
    exact ⟨fun _ hm => (nomatch hm), rfl, by simp, by simp⟩
  | cons m ms ih =>
    unfold pushAll at h
    split at h
    · nomatch h
    · rename_i q hq
      split at h
      · nomatch h
      · rename_i added' p' hp
        injection h with h
        injection h with ha hp'
        subst ha hp'
        have hrest := ih hp
        obtain ⟨hm, rfl⟩ := (push_eq_ok_iff o q m).1 hq
        refine ⟨?_, ?_, ?_, ?_⟩
        · intro x hx
          rcases List.mem_cons.1 hx with rfl | hx
          · exact hm
          · exact hrest.sound x hx
        · rw [bytes_append, List.drop_left, hrest.added_eq, List.map_cons]
        · rw [hrest.bytes_eq, bytes_append, List.flatMap_cons, List.append_assoc]
        · rw [hrest.fds_eq, fds_append, List.flatMap_cons, List.append_assoc]

/-! ## What is read -/

/-- A reading, and then the others. -/
theorem readings_succ {resolve : Resolver} {n consumed : Nat} {buffer rest : List UInt8}
    {fds left g : List Descriptor} {m : Message} {ms : List (Message × List UInt8)}
    (hm : decode buffer fds resolve = .message m consumed left)
    (hms : readings resolve n (buffer.drop consumed) left = some (ms, rest, g)) :
    readings resolve (n + 1) buffer fds = some ((m, buffer.take consumed) :: ms, rest, g) := by
  unfold readings
  rw [hm]
  dsimp only
  rw [hms]
  rfl

/-- Frames of messages that fit their signatures are read back in order. -/
theorem readings_frames {resolve : Resolver} {limit : Nat} (hlimit : limit ≤ maxMessageSize)
    (t : List UInt8) (g : List Descriptor) (ms : List Message)
    (hms : ∀ m ∈ ms, ∃ s, resolve m.object m.opcode = .ok s ∧ s.check m.args = .ok ())
    (hsound : ∀ m ∈ ms, m.fault? limit = none) :
    readings resolve ms.length (ms.flatMap Message.frame ++ t)
        (ms.flatMap Message.descriptors ++ g) =
      some (ms.zip (ms.map Message.frame), t, g) := by
  induction ms with
  | nil => rfl
  | cons m ms ih =>
    obtain ⟨s, hs, hcheck⟩ := hms m (List.mem_cons_self ..)
    have hread := decode_frame hlimit (hsound m (List.mem_cons_self ..)) hs
      ((s.check_eq_ok_iff m.args).1 hcheck) (ms.flatMap Message.frame ++ t)
      (ms.flatMap Message.descriptors ++ g)
    have hrest := ih (fun x hx => hms x (List.mem_cons_of_mem m hx))
      (fun x hx => hsound x (List.mem_cons_of_mem m hx))
    -- the first reading uses up exactly the first frame
    have htake : (m.frame ++ (ms.flatMap Message.frame ++ t)).take m.size = m.frame :=
      List.take_left' m.length_frame
    have hdrop : (m.frame ++ (ms.flatMap Message.frame ++ t)).drop m.size =
        ms.flatMap Message.frame ++ t := List.drop_left' m.length_frame
    rw [← hdrop] at hrest
    have h := readings_succ hread hrest
    rw [htake] at h
    rw [List.flatMap_cons, List.flatMap_cons, List.append_assoc, List.append_assoc,
      List.length_cons, h]
    rfl

/-- Every stream of messages that fit the signatures of their targets is read back message by message:
the same messages in order, each from the bytes that were appended for it, and after the last of them
the bytes and descriptors that follow the stream. -/
theorem readings_pushAll {resolve : Resolver} {limit : Nat} {ms : List Message}
    {added : List (List UInt8)} {o : Outbox}
    (hms : ∀ m ∈ ms, ∃ s, resolve m.object m.opcode = .ok s ∧ s.check m.args = .ok ())
    (h : (Outbox.withLimit limit).pushAll ms = .ok (added, o)) (t : List UInt8)
    (g : List Descriptor) :
    readings resolve ms.length (o.takeBytes.1 ++ t) (o.takeFds.1 ++ g) =
      some (ms.zip added, t, g) := by
  have hholds := Outbox.holds_of_pushAll h
  have hbytes : o.takeBytes.1 = ms.flatMap Message.frame := hholds.bytes_eq
  have hfds : o.takeFds.1 = ms.flatMap Message.descriptors := hholds.fds_eq
  rw [hbytes, hfds, hholds.added_eq]
  exact readings_frames (Nat.min_le_right limit maxMessageSize) t g ms hms hholds.sound

/-- The signature of a request with a text, a descriptor and an array. -/
def sampleSignature : Signature where
  params := [{ name := "title", kind := .string, nullable := true }, { name := "data", kind := .fd },
    { name := "sizes", kind := .array }]

/-- Two such requests; the text and the array of the first one need padding. -/
def sampleMessages : List Message :=
  [⟨.display, 0, [.string (some "ab"), .fd ⟨7, "memory"⟩, .array [1, 2, 3, 4, 5]]⟩,
    ⟨.display, 0, [.string none, .fd ⟨8, "pipe"⟩, .array []]⟩]

theorem readings_pushAll_sample : ∃ added o,
    (Outbox.withLimit 32).pushAll sampleMessages = .ok (added, o) ∧
      readings (fun _ _ => .ok sampleSignature) 2 (o.takeBytes.1 ++ [9, 9])
        (o.takeFds.1 ++ [⟨9, "next"⟩]) =
          some (sampleMessages.zip added, [9, 9], [⟨9, "next"⟩]) := by
  have hms : ∀ m ∈ sampleMessages, ∃ s, (Except.ok sampleSignature : Except Error Signature) = .ok s ∧
      s.check m.args = .ok () := by
    intro m hm
    rcases List.mem_cons.1 hm with rfl | hm
    · exact ⟨sampleSignature, rfl, rfl⟩
    · obtain rfl := List.mem_singleton.1 hm
      exact ⟨sampleSignature, rfl, rfl⟩
  have h : (Outbox.withLimit 32).pushAll sampleMessages = .ok (_, _) := rfl
  refine ⟨_, _, h, ?_⟩
  exact @readings_pushAll (fun _ _ => .ok sampleSignature) 32 sampleMessages _ _ hms h [9, 9] _

end Compositor.Wire
