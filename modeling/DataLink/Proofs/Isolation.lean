import DataLink.Proofs.Conservation
import DataLink.Proofs.ReadOnly

/-!
# The way out of a link

What happens to output on its way out does not come back. A sink may fail as it likes, and
interference may spoil what is sent: all that the link reports and keeps is the same, and so is the
length of each output. Interference with output draws from a stream of its own, and it spoils one
byte at most.
-/

namespace DataLink

/-! ### Two computations side by side -/

section

variable {α β γ δ : Type} {R : α → β → Prop} {S : γ → δ → Prop} {x : Option α} {y : Option β}

/-- What is related is related more loosely. -/
theorem rel_imp {S : α → β → Prop} (h : Option.Rel R x y) (hRS : ∀ a b, R a b → S a b) :
    Option.Rel S x y := by
  cases h with
  | none => exact .none
  | some h => exact .some (hRS _ _ h)

/-- What has related values, or none, is taken to what has related values, or none. -/
theorem rel_map {f : α → γ} {g : β → δ} (h : Option.Rel R x y) (hf : ∀ a b, R a b → S (f a) (g b)) :
    Option.Rel S (x.map f) (y.map g) := by
  cases h with
  | none => exact .none
  | some h => exact .some (hf _ _ h)

/-- What comes of related results is related. -/
theorem rel_bind {f : α → Option γ} {g : β → Option δ} (h : Option.Rel R x y)
    (hf : ∀ a b, R a b → Option.Rel S (f a) (g b)) : Option.Rel S (x.bind f) (y.bind g) := by
  cases h with
  | none => exact .none
  | some h => exact hf _ _ h

end

/-! ### Spoiled output -/

/-- The number of places where strings of bytes differ. -/
def Bytes.differences (a b : Bytes) : Nat := (a.zip b).countP fun pair => pair.1 ≠ pair.2

/-- Bytes at the front count once if they differ. -/
theorem Bytes.differences_cons (b c : UInt8) (first second : Bytes) :
    differences (b :: first) (c :: second) =
      differences first second + if b ≠ c then 1 else 0 := by
  simp only [differences, List.zip_cons_cons, List.countP_cons, decide_eq_true_eq]

/-- Bytes do not differ from themselves. -/
theorem Bytes.differences_self (bytes : Bytes) : bytes.differences bytes = 0 := by
  induction bytes with
  | nil => rfl
  | cons b rest ih => rw [differences_cons, ih, if_neg (not_not_intro rfl)]

/-- Changing a byte makes at most one difference. -/
theorem Bytes.differences_modify (bytes : Bytes) (index : Nat) (f : UInt8 → UInt8) :
    bytes.differences (bytes.modify index f) ≤ 1 := by
  induction bytes generalizing index with
  | nil => exact Nat.zero_le _
  | cons b rest ih =>
    cases index with
    | zero =>
      rw [List.modify_zero_cons, differences_cons, differences_self]
      split <;> omega
    | succ index =>
      rw [List.modify_succ_cons, differences_cons, if_neg (not_not_intro rfl)]
      exact ih index

/-- An output and its counterpart are of one length. If the first one is as it was emitted, which
is what `calm` says, they differ in one byte at most. -/
structure Bytes.Resembles (calm : Prop) (a b : Bytes) : Prop where
  length : b.length = a.length
  spoiled : calm → a.differences b ≤ 1

/-- Interference makes at most one difference. -/
theorem Interference.differences_disturb (i : Interference) (bytes : Bytes) :
    bytes.differences (i.disturb bytes).bytes ≤ 1 := by
  have hself : bytes.differences bytes ≤ 1 := by
    rw [Bytes.differences_self]
    exact Nat.zero_le _
  unfold disturb
  split
  · exact hself
  · split
    · exact hself
    · exact Bytes.differences_modify _ _ _

namespace Link

/-- Disturbed output is as long as the undisturbed. -/
theorem length_disturbOutput (link : Link) (blob : Bytes) :
    (link.disturbOutput blob).1.length = blob.length := by
  unfold disturbOutput
  split
  · rfl
  · exact Interference.length_disturb _ _

/-- Disturbed output differs from the undisturbed in at most one byte. -/
theorem differences_disturbOutput (link : Link) (blob : Bytes) :
    blob.differences (link.disturbOutput blob).1 ≤ 1 := by
  unfold disturbOutput
  split
  · rw [Bytes.differences_self]
    exact Nat.zero_le _
  · exact Interference.differences_disturb _ _

/-! ### Links that differ in their interference with output -/

/-- The link with another interference with its output. -/
def retune (link : Link) (probability : Binary64) (noise : Option Interference) : Link :=
  { link with
    settings := { link.settings with outputInterference := probability }
    outputNoise := noise }

/-- The second link is the first one with another interference with output. In a calm setting the
first one has none. -/
structure Retuned (calm : Prop) (a b : Link) : Prop where
  same : b = a.retune b.settings.outputInterference b.outputNoise
  quiet : calm → a.outputNoise = none

variable {calm : Prop} {link a b : Link}

/-- A link is the retuned one but for the interference with its output. -/
theorem retuned_retune (h : calm → link.outputNoise = none) (probability : Binary64)
    (noise : Option Interference) : link.Retuned calm (link.retune probability noise) :=
  ⟨rfl, h⟩

/-- Output is due alike, and what is sent is of the same length. -/
theorem sendOutput_retune (h : calm → link.outputNoise = none) (probability : Binary64)
    (noise : Option Interference) (cells : Cells) (now : Duration) :
    Option.Rel
      (fun r r' => r.1.Retuned calm r'.1 ∧ r'.2.1 = r.2.1 ∧
        Option.Rel (Bytes.Resembles calm) r.2.2 r'.2.2)
      (link.sendOutput cells now) ((link.retune probability noise).sendOutput cells now) := by
  have hperiod : (link.retune probability noise).settings.sendPeriod = link.settings.sendPeriod :=
    rfl
  have hnext : (link.retune probability noise).nextOutputAt = link.nextOutputAt := rfl
  have hprotocol : (link.retune probability noise).protocol = link.protocol := rfl
  have hidle : Option.Rel
      (fun r r' : Link × List LinkEvent × Option Bytes => r.1.Retuned calm r'.1 ∧ r'.2.1 = r.2.1 ∧
        Option.Rel (Bytes.Resembles calm) r.2.2 r'.2.2)
      (some (link, [], none)) (some (link.retune probability noise, [], none)) :=
    .some ⟨retuned_retune h _ _, rfl, .none⟩
  simp only [sendOutput, hperiod, hnext, hprotocol]
  cases link.settings.sendPeriod with
  | none => exact hidle
  | some period =>
    cases link.nextOutputAt with
    | none => exact hidle
    | some due =>
      by_cases hwait : now < due
      · simp only [if_pos hwait]
        exact hidle
      · simp only [if_neg hwait]
        cases followingOutput? period due now with
        | none => exact .none
        | some next =>
          have hlength := (link.retune probability noise).length_disturbOutput
            (link.protocol.emit cells)
          rw [← link.length_disturbOutput (link.protocol.emit cells)] at hlength
          have hclean (hcalm : calm) :
              link.disturbOutput (link.protocol.emit cells) = (link.protocol.emit cells, none) := by
            rw [disturbOutput, h hcalm]
          refine .some ⟨⟨rfl, fun hcalm => ?_⟩, ?_, .some ⟨hlength, fun hcalm => ?_⟩⟩
          · exact congrArg Prod.snd (hclean hcalm)
          · rw [hlength]
          · rw [hclean hcalm]
            exact differences_disturbOutput _ _

/-- Input goes its own way, through the interference with input alone. -/
theorem feed_retune (link : Link) (probability : Binary64) (noise : Option Interference)
    (bytes : Bytes) :
    (link.retune probability noise).feed bytes = (link.feed bytes).retune probability noise := by
  have hnoise : (link.retune probability noise).inputNoise = link.inputNoise := rfl
  simp only [feed, hnoise]
  cases link.inputNoise with
  | none => rfl
  | some noise => rfl

/-- Before its output, a cycle has no use for interference with output. -/
theorem intake_retune (link : Link) (probability : Binary64) (noise : Option Interference)
    (now : Duration) :
    (link.retune probability noise).intake now =
      { link.intake now with link := (link.intake now).link.retune probability noise } := rfl

/-- Links that differ in their interference with output only are obtained by retuning. -/
theorem Retuned.exists_eq (h : a.Retuned calm b) :
    ∃ probability noise, b = a.retune probability noise := ⟨_, _, h.same⟩

/-- The same bytes arrive at both links, which stay alike. -/
theorem Retuned.feed (h : a.Retuned calm b) (bytes : Bytes) :
    b.arriving bytes = a.arriving bytes ∧ (a.feed bytes).Retuned calm (b.feed bytes) := by
  obtain ⟨probability, noise, rfl⟩ := h.exists_eq
  have hquiet : (a.feed bytes).outputNoise = a.outputNoise := by rw [feed_eq]
  refine ⟨rfl, ?_⟩
  rw [feed_retune]
  exact retuned_retune (fun hcalm => hquiet.trans (h.quiet hcalm)) probability noise

/-- Both links have buffered the same, and they stay alike when it is discarded. -/
theorem Retuned.discard (h : a.Retuned calm b) :
    b.buffered = a.buffered ∧ a.discardInput.Retuned calm b.discardInput := by
  obtain ⟨probability, noise, rfl⟩ := h.exists_eq
  exact ⟨rfl, rfl, h.quiet⟩

/-- What a cycle leaves behind and reports is the same. -/
theorem Retuned.process (h : a.Retuned calm b) (cells : Cells) (now : Duration) :
    Option.Rel
      (fun r r' => r.link.Retuned calm r'.link ∧ r'.cells = r.cells ∧ r'.events = r.events ∧
        Option.Rel (Bytes.Resembles calm) r.output r'.output)
      (a.process cells now) (b.process cells now) := by
  obtain ⟨probability, noise, rfl⟩ := h.exists_eq
  have hstarts : (a.retune probability noise).starts now = a.starts now := rfl
  rw [process_eq, process_eq, hstarts, intake_retune]
  by_cases hstart : a.starts now = true
  · rw [if_pos hstart, if_pos hstart]
    have hquiet : calm → ((a.intake now).link.setDue (a.due? now)).outputNoise = none := h.quiet
    refine rel_map (sendOutput_retune hquiet probability noise _ now) ?_
    rintro ⟨link, sent, output⟩ ⟨link', sent', output'⟩ ⟨hlink, rfl, houtput⟩
    exact ⟨hlink, rfl, rfl, houtput⟩
  · rw [if_neg hstart, if_neg hstart]
    exact .none

/-- The second link eats in a cycle what the first one does. -/
theorem Retuned.cycleLog (h : a.Retuned calm b) (now : Duration) {r r' : CycleResult}
    (hevents : r'.events = r.events) :
    b.cycleLog now r' = { a.cycleLog now r with output := r'.output } := by
  rw [h.same]
  simp only [Link.cycleLog, hevents]
  rfl

end Link

/-- The two sources of interference have a generator each, and only one of them changes. -/
theorem Link.retuned_of_new {protocol : Protocol} {settings : Settings} {probability : Binary64}
    {entropy : Entropy} {link link' : Link} (h : Link.new protocol settings entropy = .ok link)
    (h' : Link.new protocol { settings with outputInterference := probability } entropy =
      .ok link') :
    link.Retuned (settings.outputInterference.le .zero = true) link' := by
  simp only [Link.new] at h h'
  obtain ⟨_, -, rfl⟩ := Packet.map_ok_iff.mp h
  obtain ⟨_, -, rfl⟩ := Packet.map_ok_iff.mp h'
  exact ⟨rfl, fun hcalm => noise?_of_le_zero hcalm _ _⟩

/-! ### Nodes -/

/-- What an entry of the log says was handed over as output. -/
def Entry.output : Entry → Bytes
  | .cycled cycle => cycle.output.getD []
  | _ => []

namespace Node

variable {W : Type} [Sink W]

/-- Carries out an action. Output goes to the sink. No value means that a time is not
representable. -/
def step? (node : Node W) (a : Action) : Option (Entry × Node W) :=
  (Site.step? ⟨node.link, node.cells⟩ a).map fun (entry, site) =>
    (entry, ⟨site.link, site.cells, Sink.handOver node.sink entry.output⟩)

/-- Carries out actions one after another. -/
def run? (node : Node W) : List Action → Option (Log × Node W)
  | [] => some ([], node)
  | a :: rest =>
    (node.step? a).bind fun (entry, next) =>
      (next.run? rest).map fun (log, last) => (entry :: log, last)

/-- Fed bytes reach the link and nothing else. -/
theorem step?_feed (node : Node W) (bytes : Bytes) :
    (node.step? (.feed bytes)).map Prod.snd = some (node.feed bytes) := rfl

/-- A cycle of a node is one of its link, with the output handed over to the sink. -/
theorem step?_cycle (node : Node W) (now : Duration) :
    (node.step? (.cycle now)).map (fun r => (r.2, r.1.events)) = node.process now := by
  simp only [step?, Site.step?, process, Option.map_map]
  refine Option.map_congr fun r _ => ?_
  cases houtput : r.output with
  | none => simp [Link.cycleLog, Entry.output, Sink.handOver, houtput]
  | some blob => simp [Link.cycleLog, Entry.output, houtput]

end Node

/-- Entries that tell the same, but for what was sent in a cycle. -/
inductive Entry.Resembles (calm : Prop) : Entry → Entry → Prop where
  | same (e : Entry) (h : e.cycle? = none) : Resembles calm e e
  | cycled (c : CycleLog) (output : Option Bytes)
      (h : Option.Rel (Bytes.Resembles calm) c.output output) :
      Resembles calm (.cycled c) (.cycled { c with output })

/-- The second node is the first one with another sink and another interference with output. -/
structure Node.Resembles {W W' : Type} (calm : Prop) (a : Node W) (b : Node W') : Prop where
  link : a.link.Retuned calm b.link
  cells : b.cells = a.cells

namespace Node.Resembles

variable {W W' : Type} [Sink W] [Sink W'] {calm : Prop} {a : Node W} {b : Node W'}

/-- Whatever is done with the nodes, they do the same, but for what they send. -/
theorem step (h : a.Resembles calm b) (action : Action) :
    Option.Rel (fun r r' => r.1.Resembles calm r'.1 ∧ r.2.Resembles calm r'.2)
      (a.step? action) (b.step? action) := by
  cases action with
  | feed bytes =>
    obtain ⟨harriving, hlink⟩ := h.link.feed bytes
    refine .some ⟨?_, hlink, h.cells⟩
    rw [harriving]
    exact .same _ rfl
  | discard =>
    obtain ⟨hbuffered, hlink⟩ := h.link.discard
    refine .some ⟨?_, hlink, h.cells⟩
    rw [hbuffered]
    exact .same _ rfl
  | assign write =>
    refine .some ⟨.same _ rfl, h.link, ?_⟩
    exact congrArg (·.put write.cell write.value) h.cells
  | cycle now =>
    simp only [step?, Site.step?, Option.map_map, h.cells]
    refine rel_map (h.link.process a.cells now) ?_
    rintro r r' ⟨hlink, hcells, hevents, houtput⟩
    refine ⟨?_, hlink, hcells⟩
    simp only [Function.comp_apply, h.link.cycleLog now hevents]
    exact .cycled _ _ houtput

/-- So they do in a run of any length. -/
theorem run (h : a.Resembles calm b) (actions : List Action) :
    Option.Rel
      (fun r r' => List.Forall₂ (Entry.Resembles calm) r.1 r'.1 ∧ r.2.Resembles calm r'.2)
      (a.run? actions) (b.run? actions) := by
  induction actions generalizing a b with
  | nil => exact .some ⟨.nil, h⟩
  | cons action rest ih =>
    refine rel_bind (h.step action) ?_
    rintro ⟨entry, next⟩ ⟨entry', next'⟩ ⟨hentry, hnext⟩
    refine rel_map (ih hnext) ?_
    rintro ⟨log, last⟩ ⟨log', last'⟩ ⟨hlog, hlast⟩
    exact ⟨.cons hentry hlog, hlast⟩

end Node.Resembles

/-- The way out is isolated. Take two links for one layout that differ in their interference with
output, with any two sinks, and do the same with both, for as long as you like. Either both get
stuck at a time that is not representable, or neither does. In each cycle they report the same
events, eat the same and assign the same, and either both send or none does, and as many bytes.
Afterwards the cells are the same and so are the links, but for the interference. If the first
link has none, each output differs from its counterpart in one byte at most. -/
theorem output_isolated {W W' : Type} [Sink W] [Sink W'] {l : Layout} {probability : Binary64}
    {entropy : Entropy} {link link' : Link} (hlink : l.link entropy = .ok link)
    (hlink' : { l with
      settings := { l.settings with outputInterference := probability } }.link entropy = .ok link')
    (cells : Cells) (sink : W) (sink' : W') (actions : List Action) :
    Option.Rel
      (fun r r' =>
        List.Forall₂ (Entry.Resembles (l.settings.outputInterference.le .zero = true)) r.1 r'.1 ∧
        r'.2.cells = r.2.cells ∧
        r'.2.link = { r.2.link with
          settings := { r.2.link.settings with
            outputInterference := r'.2.link.settings.outputInterference }
          outputNoise := r'.2.link.outputNoise })
      (Node.run? ⟨link, cells, sink⟩ actions) (Node.run? ⟨link', cells, sink'⟩ actions) := by
  have hlinks := Link.retuned_of_new (of_mapError_ok hlink) (of_mapError_ok hlink')
  have hnodes : (Node.mk link cells sink).Resembles
      (l.settings.outputInterference.le .zero = true) (Node.mk link' cells sink') := ⟨hlinks, rfl⟩
  refine rel_imp (hnodes.run actions) ?_
  rintro ⟨log, node⟩ ⟨log', node'⟩ ⟨hlog, hnode⟩
  exact ⟨hlog, hnode.cells, hnode.link.same⟩

namespace Display

/-- A line that is cut: every write to it fails. -/
structure CutLine where

/-- Nothing is ever taken from the output. -/
instance : Sink CutLine where
  write := fun line _ => (line, none)
  flush := id

/-- The second display spoils each of its outputs, and its line is cut. It reports the same and
ends with the same counters and cells, though what it sent is not what the first one sent. -/
theorem output_isolated_display :
    ∃ l link link' log log' node node', Layout.build .default document = .ok l ∧
      l.link 0 = .ok link ∧
      { l with settings := { l.settings with outputInterference := .one } }.link 0 = .ok link' ∧
      Node.run? ⟨link, l.cells, ([] : Bytes)⟩ answered = some (log, node) ∧
      Node.run? ⟨link', l.cells, CutLine.mk⟩ answered = some (log', node') ∧
      log'.map Entry.output ≠ log.map Entry.output ∧
      List.Forall₂ (Entry.Resembles (l.settings.outputInterference.le .zero = true)) log log' ∧
      node'.cells = node.cells ∧ node'.link.stats = node.link.stats := by
  have hruns : ((Layout.build .default document).toOption.bind fun l =>
      (l.link 0).toOption.bind fun link =>
        ({ l with settings := { l.settings with outputInterference := .one } }.link 0).toOption.bind
          fun link' => (Node.run? ⟨link, l.cells, ([] : Bytes)⟩ answered).bind fun r =>
            (Node.run? ⟨link', l.cells, CutLine.mk⟩ answered).map fun (r' : Log × _) =>
              decide (r'.1.map Entry.output = r.1.map Entry.output)) = some false := by
    decide +kernel
  obtain ⟨l, hbuild, hruns⟩ := Option.bind_eq_some_iff.mp hruns
  obtain ⟨link, hlink, hruns⟩ := Option.bind_eq_some_iff.mp hruns
  obtain ⟨link', hlink', hruns⟩ := Option.bind_eq_some_iff.mp hruns
  obtain ⟨⟨log, node⟩, hrun, hruns⟩ := Option.bind_eq_some_iff.mp hruns
  obtain ⟨⟨log', node'⟩, hrun', hdiffers⟩ := Option.map_eq_some_iff.mp hruns
  have hlink := of_toOption_some hlink
  have hlink' := of_toOption_some hlink'
  have hrel := output_isolated hlink hlink' l.cells ([] : Bytes) CutLine.mk answered
  rw [hrun, hrun'] at hrel
  cases hrel with
  | some h =>
    obtain ⟨hlog, hcells, hlast⟩ := h
    have hstats : node'.link.stats = node.link.stats := by
      simp only at hlast
      rw [hlast]
    exact ⟨l, link, link', log, log', node, node', of_toOption_some hbuild, hlink, hlink', hrun,
      hrun', of_decide_eq_false hdiffers, hlog, hcells, hstats⟩

end Display

end DataLink
