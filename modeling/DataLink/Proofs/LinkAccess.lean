import DataLink.Proofs.Agreement
import DataLink.Proofs.Cycle
import DataLink.Proofs.ProtocolAccess

/-!
# A link in bounds

Whatever is in its buffer, and whenever its cycle is, all that a link does with the buffer, with
interference, and with its protocol stays in bounds. Its draws are made with probabilities because
the settings were checked when the link was set up. Only time is left: the steps that may fail are
the sums of a moment and the period of output.
-/

namespace DataLink

namespace Checked

/-- Checked steps go as others that have no result where a time is not representable. They never
go out of other bounds. -/
inductive Follows {α : Type} : Checked α → Option α → Prop where
  | done (a : α) : Follows (.ok a) (some a)
  | untimely (a b : Duration) : Follows (.error (.sum a b)) none

namespace Follows

variable {α β : Type} {x : Checked α} {y : Option α} {f : α → Checked β} {g : α → Option β}

/-- A checked sum of times goes as the sum that need not be representable. -/
theorem sum (a b : Duration) : Follows (Checked.sum a b) (a.add? b) := by
  unfold Checked.sum
  cases a.add? b with
  | none => exact .untimely a b
  | some c => exact .done c

/-- Steps go alike if each of them does. -/
theorem bind (h : Follows x y) (hf : ∀ a, y = some a → Follows (f a) (g a)) :
    Follows (x >>= f) (y.bind g) := by
  cases h with
  | done a => exact hf a rfl
  | untimely a b => exact .untimely a b

/-- Going on with a step that always succeeds is applying a function. -/
theorem map {g : α → β} (h : Follows x y) (hf : ∀ a, f a = .ok (g a)) :
    Follows (x >>= f) (y.map g) := by
  rw [Option.map_eq_bind]
  refine h.bind fun a _ => ?_
  rw [hf]
  exact .done (g a)

/-- What is out of bounds is a time, and what succeeds has the result of the other steps. -/
theorem spec (h : Follows x y) :
    (∀ breach, x = .error breach → ∃ a b, breach = .sum a b) ∧ ∀ a, x = .ok a ↔ y = some a := by
  cases h with
  | done a => exact ⟨nofun, fun b => by simp⟩
  | untimely a b => exact ⟨fun breach h => ⟨a, b, (Except.error.inj h).symm⟩, fun _ => by simp⟩

end Follows

end Checked

/-- Settings pass their check only if both probabilities are some. -/
theorem Settings.isProbability_of_validate {settings : Settings} (h : settings.validate = .ok ()) :
    settings.inputInterference.isProbability = true ∧
      settings.outputInterference.isProbability = true := by
  have hchecked {setting : Setting} {value : Binary64} {u : Unit}
      (h : checkProbability setting value = .ok u) : value.isProbability = true := by
    unfold checkProbability at h
    split at h
    · assumption
    · cases h
  obtain ⟨_, -, h⟩ := of_bind_ok h
  obtain ⟨_, -, h⟩ := of_bind_ok h
  obtain ⟨_, -, h⟩ := of_bind_ok h
  obtain ⟨_, hinput, houtput⟩ := of_bind_ok h
  exact ⟨hchecked hinput, hchecked houtput⟩

namespace Link

/-! ### Input -/

/-- The probabilities that the link draws with. -/
def probabilities (link : Link) : List Binary64 :=
  (link.inputNoise.toList ++ link.outputNoise.toList).map Interference.probability

/-- All draws are made with probabilities. -/
def Drawable (link : Link) : Prop := ∀ p ∈ link.probabilities, p.isProbability = true

variable {link : Link}

/-- The interference with input of a drawable link has a probability. -/
theorem Drawable.input (h : link.Drawable) {i : Interference} (hi : link.inputNoise = some i) :
    i.probability.isProbability = true := by
  apply h
  simp [probabilities, hi]

/-- The interference with output of a drawable link has a probability. -/
theorem Drawable.output (h : link.Drawable) {i : Interference} (hi : link.outputNoise = some i) :
    i.probability.isProbability = true := by
  apply h
  simp [probabilities, hi]

/-- Appends newly arrived bytes to the input, and perhaps spoils the part that was appended. -/
def feedChecked (link : Link) (bytes : Bytes) : Checked Link :=
  let grown := link.input ++ bytes
  match link.inputNoise with
  | none => .ok { link with input := grown }
  | some noise => do
    let arrived ← Checked.range grown link.input.length grown.length
    let d ← noise.disturbChecked arrived
    .ok
      { link with
        input := grown.take link.input.length ++ d.bytes
        inputNoise := some d.next }

/-- Feeding a drawable link stays in bounds. -/
theorem feedChecked_eq (h : link.Drawable) (bytes : Bytes) :
    link.feedChecked bytes = .ok (link.feed bytes) := by
  have hroom : link.input.length ≤ (link.input ++ bytes).length := by
    rw [List.length_append]
    omega
  unfold feedChecked feed
  cases hnoise : link.inputNoise with
  | none => rfl
  | some noise =>
    simp only [Checked.range_rest hroom, Checked.ok_bind,
      Interference.disturbChecked_eq (h.input hnoise), List.drop_left, List.take_left]

/-- Eats envelopes from the front of the input until more input is needed. The first byte of
garbage is looked at once more before it is dropped. -/
def eatStepsChecked (now : Duration) : Nat → Link → Cells → List LinkEvent →
    Checked (Link × Cells × List LinkEvent)
  | 0, link, cells, events => .ok (link, cells, events)
  | steps + 1, link, cells, events =>
    if link.input = [] then .ok (link, cells, events)
    else do
      let (protocol, outcome) ← link.protocol.eatChecked link.input
      match outcome with
      | .ok eaten => do
        let input ← Checked.advance link.input eaten.consumed
        eatStepsChecked now steps
          { ({ link with protocol }).accept now eaten.consumed with input }
          (protocol.deliver eaten.envelope cells)
          (if link.isValid then events else events ++ [.acquired])
      | .error (.insufficient _ _) => .ok ({ link with protocol }, cells, events)
      | .error _ => do
        let _ ← Checked.range link.input 0 1
        let input ← Checked.advance link.input 1
        eatStepsChecked now steps { ({ link with protocol }).reject now with input } cells events

/-- The loop that eats input stays in bounds. -/
theorem eatStepsChecked_eq (now : Duration) (steps : Nat) (link : Link) (cells : Cells)
    (events : List LinkEvent) :
    eatStepsChecked now steps link cells events = .ok (eatSteps now steps link cells events) := by
  induction steps generalizing link cells events with
  | zero => rfl
  | succ steps ih =>
    by_cases hinput : link.input = []
    · rw [eatStepsChecked, eatSteps, if_pos hinput, if_pos hinput]
    have hone : 1 ≤ link.input.length := List.length_pos_iff.mpr hinput
    rw [eatStepsChecked, eatSteps, if_neg hinput, if_neg hinput, Protocol.eatChecked_eq,
      Checked.ok_bind]
    cases heat : link.protocol.eat link.input with
    | mk protocol outcome =>
      cases outcome with
      | ok eaten =>
        have hout : (link.protocol.eat link.input).2 = .ok eaten := by rw [heat]
        obtain ⟨e, -, -, -, hdecode, -⟩ := Protocol.eat_ok hout
        obtain ⟨hconsumed, hle, -⟩ := Packet.decode_ok hdecode
        have hroom : eaten.consumed ≤ link.input.length := by omega
        simp only [Checked.advance_of_le hroom, Checked.ok_bind]
        exact ih _ _ _
      | error fault =>
        cases fault with
        | insufficient needed available => rfl
        | unknownMagic =>
          simp only [Checked.range_front hone, Checked.advance_of_le hone, Checked.ok_bind]
          exact ih _ _ _
        | signatureMismatch =>
          simp only [Checked.range_front hone, Checked.advance_of_le hone, Checked.ok_bind]
          exact ih _ _ _

/-! ### Output -/

/-- Spoils an output, perhaps. -/
def disturbOutputChecked (link : Link) (blob : Bytes) :
    Checked (Bytes × Option Interference) :=
  match link.outputNoise with
  | none => .ok (blob, none)
  | some noise => do
    let d ← noise.disturbChecked blob
    .ok (d.bytes, some d.next)

/-- Disturbing the output of a drawable link stays in bounds. -/
theorem disturbOutputChecked_eq (h : link.Drawable) (blob : Bytes) :
    link.disturbOutputChecked blob = .ok (link.disturbOutput blob) := by
  unfold disturbOutputChecked disturbOutput
  cases hnoise : link.outputNoise with
  | none => rfl
  | some noise =>
    simp only [Interference.disturbChecked_eq (h.output hnoise), Checked.ok_bind]

/-- When output is due next, after it was due and sent. -/
def followingOutputChecked (period due now : Duration) : Checked Duration := do
  let next ← Checked.sum due period
  if next ≤ now then Checked.sum now period else .ok next

/-- The time of the next output is found with no other bound than that of times. -/
theorem follows_followingOutput (period due now : Duration) :
    (followingOutputChecked period due now).Follows (followingOutput? period due now) := by
  have hbind : followingOutput? period due now =
      (due.add? period).bind fun next =>
        if next ≤ now then now.add? period else some next := by
    unfold followingOutput?
    cases due.add? period <;> rfl
  rw [hbind]
  refine (Checked.Follows.sum due period).bind fun next _ => ?_
  by_cases hlate : next ≤ now
  · rw [if_pos hlate, if_pos hlate]
    exact .sum now period
  · rw [if_neg hlate, if_neg hlate]
    exact .done next

/-- Emits output if it is due. -/
def sendOutputChecked (link : Link) (cells : Cells) (now : Duration) :
    Checked (Link × List LinkEvent × Option Bytes) :=
  match link.settings.sendPeriod, link.nextOutputAt with
  | some period, some due =>
    if now < due then .ok (link, [], none)
    else do
      let blob ← link.protocol.emitChecked cells []
      let (blob, outputNoise) ← link.disturbOutputChecked blob
      let next ← followingOutputChecked period due now
      .ok ({ link with protocol := link.protocol.advance, outputNoise, nextOutputAt := some next },
        [.sent blob.length], some blob)
  | _, _ => .ok (link, [], none)

/-- Output is sent with no other bound than that of times. -/
theorem follows_sendOutput (h : link.Drawable) (cells : Cells) (now : Duration) :
    (link.sendOutputChecked cells now).Follows (link.sendOutput cells now) := by
  unfold sendOutputChecked sendOutput
  cases hperiod : link.settings.sendPeriod with
  | none => exact .done _
  | some period =>
    cases hdue : link.nextOutputAt with
    | none => exact .done _
    | some due =>
      by_cases hwait : now < due
      · simp only [if_pos hwait]
        exact .done _
      · simp only [if_neg hwait, Protocol.emitChecked_eq, Checked.ok_bind,
          disturbOutputChecked_eq h, List.nil_append]
        exact (follows_followingOutput period due now).map fun _ => rfl

/-! ### Cycles -/

/-- Starts the timers on the first cycle. -/
def startChecked (link : Link) (now : Duration) : Checked (Link × Duration) :=
  let startedAt := link.startedAt.getD now
  let link := { link with startedAt := some startedAt }
  match link.nextOutputAt, link.settings.sendPeriod with
  | none, some period => do
    let due ← Checked.sum startedAt period
    .ok ({ link with nextOutputAt := some due }, startedAt)
  | _, _ => .ok (link, startedAt)

/-- A link is started with no other bound than that of times. -/
theorem follows_start (link : Link) (now : Duration) :
    (link.startChecked now).Follows (link.start? now) := by
  cases hdue : link.nextOutputAt with
  | some due =>
    simp only [startChecked, start?, hdue]
    exact .done _
  | none =>
    cases hperiod : link.settings.sendPeriod with
    | none =>
      simp only [startChecked, start?, hdue, hperiod]
      exact .done _
    | some period =>
      simp only [startChecked, start?, hdue, hperiod]
      exact (Checked.Follows.sum (link.startedAt.getD now) period).map fun _ => rfl

/-- Runs one cycle. The timers for garbage and silence only compare times. -/
def processChecked (link : Link) (cells : Cells) (now : Duration) : Checked CycleResult := do
  let (link, startedAt) ← link.startChecked now
  let (link, cells, eaten) ← eatStepsChecked now link.input.length link cells []
  let (link, reacquired) := link.checkReacquire now
  let (link, cells, failed) := link.checkFailsafe cells now startedAt
  let (link, sent, output) ← link.sendOutputChecked cells now
  .ok ⟨link, cells, eaten ++ reacquired ++ failed ++ sent, output⟩

/-- A cycle fails exactly if a time that it needs is not representable. -/
theorem follows_process (h : link.Drawable) (cells : Cells) (now : Duration) :
    (link.processChecked cells now).Follows (link.process cells now) := by
  have hstart := link.follows_start now
  rw [start?_eq] at hstart
  rw [process_eq, processChecked]
  generalize link.startChecked now = started at hstart ⊢
  by_cases hstarts : link.starts now = true
  · rw [if_pos hstarts] at hstart ⊢
    cases hstart
    have hready : ((link.intake now).link.setDue (link.due? now)).Drawable := h
    have hsend := follows_sendOutput hready (cells.replay (link.intake now).writes) now
    simp only [Checked.ok_bind, eatStepsChecked_eq, eatSteps_eq, checkReacquire_eq,
      checkFailsafe_eq]
    rw [intake, Cells.replay_append] at hsend ⊢
    exact hsend.map fun _ => rfl
  · rw [if_neg hstarts] at hstart ⊢
    cases hstart
    exact .untimely _ _

/-! ### Probabilities -/

/-- Feeding a link does not change its probabilities. -/
theorem probabilities_feed (link : Link) (bytes : Bytes) :
    (link.feed bytes).probabilities = link.probabilities := by
  unfold feed
  cases hnoise : link.inputNoise with
  | none => simp [probabilities, hnoise]
  | some noise => simp [probabilities, hnoise, Interference.probability_disturb]

/-- Sending output does not change the probabilities of a link. -/
theorem probabilities_sendOutput {next : Link} {cells : Cells} {now : Duration}
    {sent : List LinkEvent} {output : Option Bytes}
    (h : link.sendOutput cells now = some (next, sent, output)) :
    next.probabilities = link.probabilities := by
  unfold sendOutput at h
  split at h
  · split at h
    · cases h
      rfl
    · obtain ⟨due, -, heq⟩ := Option.map_eq_some_iff.mp h
      cases heq
      cases hnoise : link.outputNoise with
      | none => simp [probabilities, hnoise]
      | some noise => simp [probabilities, hnoise, Interference.probability_disturb]
  · cases h
    rfl

/-- A cycle does not change the probabilities of a link. -/
theorem probabilities_process {cells : Cells} {now : Duration} {r : CycleResult}
    (h : link.process cells now = some r) : r.link.probabilities = link.probabilities := by
  obtain ⟨sent, hsend, -⟩ := process_eq_some h
  rw [probabilities_sendOutput hsend]
  rfl

/-- A source of interference has the probability that was set. -/
theorem probability_of_noise? {probability : Binary64} {seed : Option UInt64}
    {unseeded : Keystream} {noise : Interference}
    (h : noise? probability seed unseeded = some noise) : noise.probability = probability := by
  unfold noise? at h
  split at h
  · cases h
    cases seed <;> rfl
  · cases h

/-- The settings of a link are checked when it is set up. -/
theorem validate_of_new {protocol : Protocol} {settings : Settings} {entropy : Entropy}
    (h : Link.new protocol settings entropy = .ok link) : settings.validate = .ok () := by
  obtain ⟨_, hverify, -⟩ := Packet.map_ok_iff.mp h
  unfold verify at hverify
  split at hverify
  · cases hverify
  · exact hverify

/-- Interference comes from settings that were checked. -/
theorem drawable_of_new {protocol : Protocol} {settings : Settings} {entropy : Entropy}
    (h : Link.new protocol settings entropy = .ok link) : link.Drawable := by
  obtain ⟨hinput, houtput⟩ := Settings.isProbability_of_validate (validate_of_new h)
  obtain ⟨_, -, rfl⟩ := Packet.map_ok_iff.mp h
  intro p hp
  obtain ⟨noise, hnoise, rfl⟩ := List.mem_map.mp hp
  rcases List.mem_append.mp hnoise with hnoise | hnoise
  · rw [probability_of_noise? (Option.mem_toList.mp hnoise)]
    exact hinput
  · rw [probability_of_noise? (Option.mem_toList.mp hnoise)]
    exact houtput

end Link

end DataLink
