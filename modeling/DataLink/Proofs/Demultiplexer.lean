import DataLink.Proofs.Buffer
import DataLink.Proofs.Mirror
import DataLink.Proofs.Station

/-!
# Telling envelopes apart

A protocol looks up the envelope for an input by the leading bytes. What it knows of its envelopes
for this, their magics and sizes, is settled when the protocol is made, and no call changes it. So
an envelope never has to reject the magic of an input that the protocol hands to it.
-/

namespace DataLink

/-- What tells an envelope apart from others, and the size of what follows its magic. -/
structure Label where
  magic : Bytes
  payloadSize : Nat

namespace Envelope

/-- What tells the envelope apart. -/
def label (e : Envelope) : Label := ⟨e.header.magic, e.payloadSize⟩

/-- Turns do not change what tells an envelope apart. -/
theorem label_advance (e : Envelope) : e.advance.label = e.label := by
  have hpayload : e.advance.payloadSize = e.payloadSize := by
    simp only [payloadSize, advance]
    split
    · exact Packet.totalSize_advanceAll e.packets
    · rfl
  have hmagic : e.advance.header.magic = e.header.magic := rfl
  rw [label, label, hmagic, hpayload]

/-- Staged values do not change what tells an envelope apart. -/
theorem label_stage (e : Envelope) (values : Staged) : (e.stage values).label = e.label := rfl

/-- Decodes what follows the magic, without a look at the magic itself. -/
def decodePayload (e : Envelope) (input : Bytes) : Decoded :=
  let inner := Packet.decodeAll e.packets ((input.drop e.header.magic.length).take e.payloadSize)
  Packet.needing e.size input
    ⟨inner.staged, inner.outcome.map fun consumed => e.header.magic.length + consumed⟩

/-- Behind its magic an envelope rejects only what its payload rejects. -/
theorem decode_of_magic {e : Envelope} {input : Bytes} (h : e.header.magic <+: input) :
    e.packet.decode input = e.decodePayload input := by
  have hmagic : input.take e.header.magic.length = e.header.magic :=
    (List.prefix_iff_eq_take.mp h).symm
  simp only [packet, Packet.decode, if_pos hmagic, decodePayload, size, Packet.size, payloadSize]

end Envelope

namespace Protocol

/-- The labels in declaration order. -/
def labels (p : Protocol) : List Label := p.envelopes.map Envelope.label

/-- Turns do not change what tells envelopes apart. -/
theorem labels_advance (p : Protocol) : p.advance.labels = p.labels := by
  simp only [labels, advance, List.map_map]
  exact List.map_congr_left fun e _ => e.label_advance

/-- Eating does not change what tells envelopes apart. -/
theorem labels_eat (p : Protocol) (input : Bytes) : (p.eat input).1.labels = p.labels :=
  map_envelopes_eat Envelope.label_stage p input

/-- The checks pass for what the labels say. -/
theorem verify_eq_ok_iff {p : Protocol} :
    p.verify = .ok () ↔
      p.labels ≠ [] ∧
        ∀ label ∈ p.labels, label.magic.length = p.magicSize ∧ label.payloadSize ≠ 0 := by
  obtain ⟨es⟩ := p
  cases es with
  | nil => exact iff_of_false (fun h => nomatch h) fun h => h.1 rfl
  | cons e rest =>
    rw [verify, checkSizes_eq_ok_iff, labels, List.forall_mem_map]
    exact (and_iff_right (List.cons_ne_nil _ _)).symm

/-- The sizes of the envelopes are given by their labels. -/
theorem map_size_eq_labels (p : Protocol) :
    p.envelopes.map Envelope.size =
      p.labels.map fun label => label.magic.length + label.payloadSize := by
  rw [labels, List.map_map]
  exact List.map_congr_left fun e _ => rfl

/-- The size of a protocol is that of all its envelopes together. -/
theorem size_eq_sum (p : Protocol) : p.size = (p.envelopes.map Envelope.size).sum := by
  rw [size, List.sum, List.foldr_map]

/-- An envelope is found by its own magic, and only by that. -/
theorem Distinct.find?_eq_some_iff {p : Protocol} (h : p.Distinct) {magic : Bytes} {i : Nat} :
    p.find? magic = some i ↔ ∃ e, p.envelopes[i]? = some e ∧ e.header.magic = magic := by
  constructor
  · intro hfind
    have hi : i < p.envelopes.length := (List.findIdx?_eq_some_iff_getElem.mp hfind).1
    have he : p.envelopes[i]? = some p.envelopes[i] := List.getElem?_eq_getElem hi
    exact ⟨p.envelopes[i], he, magic_of_find? hfind he⟩
  · rintro ⟨e, he, rfl⟩
    exact h.find? he

/-- A protocol can be made of envelopes exactly if there are any, their magics are distinct and as
long as the first one, and none has an empty payload. -/
theorem exists_new_eq_ok_iff {es : List Envelope} :
    (∃ p, Protocol.new es = .ok p) ↔
      es ≠ [] ∧
      (∀ first ∈ es.head?, ∀ e ∈ es, e.header.magic.length = first.header.magic.length) ∧
      (es.map fun e => e.header.magic).Nodup ∧ ∀ e ∈ es, 0 < e.payloadSize := by
  cases es with
  | nil =>
    refine iff_of_false ?_ fun h => h.1 rfl
    rintro ⟨p, h⟩
    cases h
  | cons first rest =>
    have hsize : (⟨first :: rest⟩ : Protocol).magicSize = first.header.magic.length := rfl
    simp only [new_eq_ok_iff, exists_eq_left, hsize, List.head?_cons, Option.mem_some_iff,
      forall_eq']
    constructor
    · rintro ⟨hne, hall, hnodup⟩
      exact ⟨hne, fun e he => (hall e he).1, hnodup, fun e he => Nat.pos_of_ne_zero (hall e he).2⟩
    · rintro ⟨hne, hlength, hnodup, hpayload⟩
      exact ⟨hne, fun e he => ⟨hlength e he, Nat.ne_of_gt (hpayload e he)⟩, hnodup⟩

end Protocol

/-- No call changes a label. -/
theorem Station.labels_call (s : Station) (c : Call) :
    (s.call c).2.protocol.labels = s.protocol.labels := by
  cases c with
  | emit => exact s.protocol.labels_advance
  | eat input => exact s.protocol.labels_eat input
  | deliver | failsafe | assign => rfl

/-- No calls change what tells envelopes apart. -/
theorem Station.labels_after (s : Station) (calls : List Call) :
    (s.after calls).protocol.labels = s.protocol.labels := by
  induction calls generalizing s with
  | nil => rfl
  | cons c rest ih => rw [after_cons, ih, labels_call]

/-- The demultiplexer is sound. Envelopes carry valid headers, whatever they are. A protocol is made
of them exactly if there are any, their magics are distinct and as long as the first one, and no
payload is empty. After any calls it passes its checks, its size is that of all envelopes, and it
finds each envelope by its magic and nothing else. An envelope is accepted only from an input that
begins with its magic, and the look that it takes at the magic itself decides nothing. -/
theorem demultiplexer_sound (es : List Envelope) :
    ((∃ p, Protocol.new es = .ok p) ↔
      es ≠ [] ∧
      (∀ first ∈ es.head?, ∀ e ∈ es, e.header.magic.length = first.header.magic.length) ∧
      (es.map fun e => e.header.magic).Nodup ∧ ∀ e ∈ es, 0 < e.payloadSize) ∧
    ∀ p q cells calls, Protocol.new es = .ok p → (Station.after ⟨p, cells⟩ calls).protocol = q →
      q.verify = .ok () ∧
      (q.size = (q.envelopes.map Envelope.size).sum ∧ q.size = (es.map Envelope.size).sum) ∧
      (∀ magic i, q.find? magic = some i ↔ ∃ e, es[i]? = some e ∧ e.header.magic = magic) ∧
      ∀ input,
        (∀ eaten, (q.eat input).2 = .ok eaten →
          ∃ e, es[eaten.envelope]? = some e ∧ e.header.magic <+: input) ∧
        ∀ i e, q.magicSize ≤ input.length → q.find? (input.take q.magicSize) = some i →
          q.envelopes[i]? = some e →
            e.header.magic <+: input ∧
            q.eat input =
              (⟨q.envelopes.set i (e.stage (e.decodePayload input).staged)⟩,
                (e.decodePayload input).outcome.map fun consumed => ⟨i, consumed⟩) := by
  refine ⟨Protocol.exists_new_eq_ok_iff, ?_⟩
  rintro p q cells calls hnew rfl
  have hdistinct := Protocol.distinct_of_new hnew
  obtain ⟨rfl, hne, hall, -⟩ := Protocol.new_eq_ok_iff.mp hnew
  generalize hq : (Station.after ⟨⟨es⟩, cells⟩ calls).protocol = q
  have hlabels : q.labels = (⟨es⟩ : Protocol).labels :=
    hq ▸ Station.labels_after ⟨⟨es⟩, cells⟩ calls
  have hreaders : q.readers = (⟨es⟩ : Protocol).readers :=
    hq ▸ Station.readers_after ⟨⟨es⟩, cells⟩ calls
  have hverify : q.verify = .ok () := by
    rw [Protocol.verify_eq_ok_iff, hlabels, Protocol.magicSize_congr hreaders]
    exact ⟨mt List.map_eq_nil_iff.mp hne, List.forall_mem_map.mpr hall⟩
  have hsizes : q.envelopes.map Envelope.size = es.map Envelope.size := by
    rw [q.map_size_eq_labels, hlabels, ← Protocol.map_size_eq_labels]
  have hfind (magic : Bytes) (i : Nat) :
      q.find? magic = some i ↔ ∃ e, es[i]? = some e ∧ e.header.magic = magic := by
    rw [Protocol.find?_congr hreaders, hdistinct.find?_eq_some_iff]
  refine ⟨hverify, ⟨q.size_eq_sum, ?_⟩, hfind, fun input => ⟨?_, ?_⟩⟩
  · rw [q.size_eq_sum, hsizes]
  · intro eaten hok
    obtain ⟨-, -, -, hfound, -⟩ := Protocol.eat_ok hok
    obtain ⟨e, he, hmagic⟩ := (hfind _ _).mp hfound
    exact ⟨e, he, hmagic ▸ List.take_prefix _ _⟩
  · intro i e hlong hfound he
    have hleads : e.header.magic <+: input := by
      rw [Protocol.magic_of_find? hfound he]
      exact List.take_prefix _ _
    refine ⟨hleads, ?_⟩
    rw [Protocol.eat_of_find? hlong hfound he, Envelope.decode_of_magic hleads]

namespace Intercom

/-- The magic of the bell's envelope is not empty. -/
theorem bellMagic_ne : ([0xAC] : Bytes) ≠ [] := by decide

/-- The bell is sent time and again. -/
theorem bellEvery_ne : (1 : UInt64) ≠ 0 := by decide

/-- The bell at the door is sent on every turn. -/
def bell : Envelope :=
  { header := ⟨[0xAC], 1, 0, 0, bellMagic_ne, bellEvery_ne⟩
    packets := [.bits [.flag ⟨⟨"bell", true, false⟩, false⟩]]
    staged := [none] }

/-- A message for the lamp, a message that is not complete, and one that nobody knows. -/
def traffic : List Call :=
  [.emit, .eat [0xAB, 128], .deliver 0, .eat [0xAC], .emit, .failsafe, .eat [0xAD, 0]]

/-- After all this the bell is still found by its magic. -/
theorem demultiplexer_sound_intercom :
    ∃ p q, Protocol.new [envelope, bell] = .ok p ∧
      (Station.after ⟨p, station.cells⟩ traffic).protocol = q ∧
      q.verify = .ok () ∧ q.size = 4 ∧ q.find? [0xAC] = some 1 ∧
      ∃ e, [envelope, bell][1]? = some e ∧ e.header.magic <+: [0xAC, 128] := by
  have hnew : Protocol.new [envelope, bell] = .ok ⟨[envelope, bell]⟩ := rfl
  obtain ⟨-, hruns⟩ := demultiplexer_sound [envelope, bell]
  obtain ⟨hverify, ⟨-, hsize⟩, hfind, heats⟩ := hruns _ _ station.cells traffic hnew rfl
  obtain ⟨haccepts, -⟩ := heats [0xAC, 128]
  exact ⟨_, _, hnew, rfl, hverify, hsize.trans rfl, (hfind [0xAC] 1).mpr ⟨bell, rfl, rfl⟩,
    haccepts ⟨1, 2⟩ (by decide)⟩

end Intercom

end DataLink
