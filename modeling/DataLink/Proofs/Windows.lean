import DataLink.Proofs.Eating

/-!
# Windows

A window is some bytes of a stream, taken for an envelope in full. It is judged and decoded on
its own. Whatever eating a stream accepts is such a window, since a success stages every leaf
anew: what an attempt that failed has staged is never delivered.
-/

namespace DataLink

/-- The envelope before anything is staged. -/
def Envelope.fresh (e : Envelope) : Envelope := { e with staged := .empty e.leaves }

/-- The protocol before anything is staged. -/
def Protocol.fresh (p : Protocol) : Protocol := ⟨p.envelopes.map Envelope.fresh⟩

/-- Some bytes of a stream, taken for an envelope. -/
structure Window where
  start : Nat
  /-- The envelope's place in the protocol. -/
  envelope : Nat
  bytes : Bytes
  deriving DecidableEq, Repr

namespace Window

/-- The place in the stream behind the window. -/
def stop (w : Window) : Nat := w.start + w.bytes.length

/-- The envelope that the window holds. -/
def eaten (w : Window) : Eaten := ⟨w.envelope, w.bytes.length⟩

/-- The window stands in the stream. -/
def In (w : Window) (stream : Bytes) : Prop :=
  ∃ before after, stream = before ++ w.bytes ++ after ∧ before.length = w.start

/-- The window holds one envelope of the protocol, and nothing more. Its magic leads, all its
signatures are right, and eating it alone succeeds. -/
structure Genuine (p : Protocol) (w : Window) : Prop where
  envelope : ∃ e, p.envelopes[w.envelope]? = some e ∧ e.header.magic <+: w.bytes ∧
    w.bytes.length = e.size ∧ e.packet.Sealed w.bytes
  eaten : (p.fresh.eat w.bytes).2 = .ok w.eaten

/-- What is assigned to cells when the window alone is eaten with nothing staged before. -/
def writes (p : Protocol) (w : Window) : List Assignment :=
  (p.fresh.eat w.bytes).1.writes w.envelope

end Window

/-- The windows that bites accept, from a place in the stream on. -/
def Bite.windows : Nat → Bytes → List Bite → List Window
  | _, _, [] => []
  | start, input, .accept eaten _ :: rest =>
    ⟨start, eaten.envelope, input.take eaten.consumed⟩ ::
      windows (start + eaten.consumed) (input.drop eaten.consumed) rest
  | start, input, .drop _ :: rest => windows (start + 1) (input.drop 1) rest

/-- Staging does not change how an envelope is read. -/
theorem Envelope.reader_fresh (e : Envelope) : e.fresh.reader = e.reader := rfl

/-- Staging does not change how the envelopes of a protocol are read. -/
theorem Protocol.readers_fresh (p : Protocol) : p.fresh.readers = p.readers := by
  rw [readers, fresh, List.map_map]
  exact List.map_congr_left fun e _ => e.reader_fresh

namespace Protocol

variable {p : Protocol} {input : Bytes} {eaten : Eaten} {writes : List Assignment}

/-- An accepted envelope is accepted in the same way if it is all there is. -/
theorem bite?_take (hmagic : ∀ e ∈ p.envelopes, e.header.magic.length = p.magicSize)
    (h : p.bite? input = some (.accept eaten writes)) :
    p.bite? (input.take eaten.consumed) = some (.accept eaten writes) := by
  obtain ⟨-, hok, -⟩ := bite?_eq_accept_iff.mp h
  obtain ⟨e, he, -, hfind, hdecode, -⟩ := eat_ok hok
  obtain ⟨hsize, hle, -⟩ := Packet.decode_ok hdecode
  have hlength : (input.take eaten.consumed).length = e.packet.size := by
    rw [List.length_take]
    omega
  have hshort : p.magicSize ≤ e.packet.size := by
    rw [← hmagic e (List.mem_of_getElem? he)]
    simp only [Envelope.packet, Packet.size]
    omega
  have hdecode' : (e.packet.decode (input.take eaten.consumed)).outcome = .ok eaten.consumed := by
    have happend := Packet.decode_append (input.drop eaten.consumed) (Nat.le_of_eq hlength.symm)
    rw [List.take_append_drop] at happend
    rw [← happend, hdecode]
  have hfind' : p.find? ((input.take eaten.consumed).take p.magicSize) = some eaten.envelope := by
    rw [List.take_take, Nat.min_eq_left (by omega), hfind]
  have hok' : (p.eat (input.take eaten.consumed)).2 = .ok eaten := by
    rw [eat_of_find? (by omega) hfind' he, hdecode']
    rfl
  have hne : input.take eaten.consumed ≠ [] := by
    have hpos := e.size_pos
    rw [Envelope.size] at hpos
    exact List.length_pos_iff.mp (by omega)
  -- What is assigned agrees because more bytes cannot change it.
  have hbite := bite?_eq_accept_iff.mpr ⟨hne, hok', rfl⟩
  have hmore := bite?_append hbite (input.drop eaten.consumed)
  rw [List.take_append_drop, h] at hmore
  rw [hbite, hmore]

/-- What a bite accepts is a genuine window, and assigns what the window alone assigns. -/
theorem genuine_of_bite? (hmagic : ∀ e ∈ p.envelopes, e.header.magic.length = p.magicSize)
    (h : p.bite? input = some (.accept eaten writes)) (start : Nat) :
    (⟨start, eaten.envelope, input.take eaten.consumed⟩ : Window).Genuine p ∧
      (⟨start, eaten.envelope, input.take eaten.consumed⟩ : Window).writes p = writes := by
  have halone := bite?_take hmagic h
  have hlength : (input.take eaten.consumed).length = eaten.consumed := by
    rw [List.length_take]
    exact Nat.min_eq_left (bite?_length h).2
  obtain ⟨-, hok, -⟩ := bite?_eq_accept_iff.mp halone
  obtain ⟨e, he, -, -, hdecode, -⟩ := eat_ok hok
  have hsize := (Packet.decode_ok hdecode).1
  rw [← bite?_congr p.readers_fresh] at halone
  obtain ⟨-, hfresh, hwrites⟩ := bite?_eq_accept_iff.mp halone
  refine ⟨⟨⟨e, he, e.magic_prefix_of_decode hdecode, ?_, Packet.sealed_of_decode hdecode⟩, ?_⟩,
    hwrites⟩
  · rw [hlength, hsize, Envelope.size]
  · rw [hfresh, Window.eaten, hlength]

/-- Eating a stream from some place on accepts genuine windows, one behind the other, and
assigns what they assign. -/
theorem Eats.windows {rest : Bytes} {bites : List Bite} (h : p.Eats input bites rest)
    (hmagic : ∀ e ∈ p.envelopes, e.header.magic.length = p.magicSize) (before : Bytes) :
    (∀ w ∈ Bite.windows before.length input bites, w.In (before ++ input) ∧ w.Genuine p ∧
      before.length ≤ w.start ∧ w.stop ≤ before.length + Bite.total bites) ∧
    (Bite.windows before.length input bites).Pairwise (fun v w => v.stop ≤ w.start) ∧
    (Bite.windows before.length input bites).flatMap (Window.writes p) =
      bites.flatMap Bite.writes ∧
    (Bite.windows before.length input bites).map Window.eaten = Bite.accepted bites := by
  induction h generalizing before with
  | nothing input => simp [Bite.windows]
  | @bite input rest b bites first others ih =>
    have hle := (bite?_length first).2
    have htake : (input.take b.length).length = b.length := by
      rw [List.length_take, Nat.min_eq_left hle]
    -- The induction hypothesis is about the stream with what the bite takes moved to its front.
    have hothers := ih (before ++ input.take b.length)
    rw [List.append_assoc, List.take_append_drop, List.length_append, htake] at hothers
    obtain ⟨hmem, hordered, hwrites, haccepted⟩ := hothers
    rw [Bite.total_cons]
    cases b with
    | drop fault =>
      refine ⟨?_, hordered, hwrites, haccepted⟩
      intro w hw
      obtain ⟨hin, hgenuine, hstart, hstop⟩ := hmem w hw
      exact ⟨hin, hgenuine, by omega, by omega⟩
    | accept eaten writes =>
      change (input.take eaten.consumed).length = eaten.consumed at htake
      obtain ⟨hgenuine, hfirst⟩ := genuine_of_bite? hmagic first before.length
      have hin : (⟨before.length, eaten.envelope, input.take eaten.consumed⟩ : Window).In
          (before ++ input) :=
        ⟨before, input.drop eaten.consumed, by simp, rfl⟩
      refine ⟨List.forall_mem_cons.mpr ⟨⟨hin, hgenuine, Nat.le_refl _, ?_⟩, ?_⟩,
        List.pairwise_cons.mpr ⟨?_, hordered⟩, ?_, ?_⟩
      · simp only [Window.stop, htake, Bite.length]
        omega
      · intro w hw
        obtain ⟨hin, hgenuine, hstart, hstop⟩ := hmem w hw
        exact ⟨hin, hgenuine, by omega, by omega⟩
      · intro w hw
        obtain ⟨-, -, hstart, -⟩ := hmem w hw
        simp only [Window.stop, htake]
        exact hstart
      · rw [Bite.windows, List.flatMap_cons, List.flatMap_cons, hfirst]
        exact congrArg (writes ++ ·) hwrites
      · rw [Bite.windows, List.map_cons, Window.eaten, htake, Bite.accepted_accept]
        exact congrArg (eaten :: ·) haccepted

end Protocol

/-- A window stays in its stream when more arrives. -/
theorem Window.In.append {w : Window} {stream : Bytes} (h : w.In stream) (more : Bytes) :
    w.In (stream ++ more) := by
  obtain ⟨before, after, rfl, hstart⟩ := h
  exact ⟨before, after ++ more, by rw [List.append_assoc _ after more], hstart⟩

end DataLink
