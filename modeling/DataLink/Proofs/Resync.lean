import DataLink.Proofs.Chunking
import DataLink.Proofs.Frames
import DataLink.Proofs.LayoutEnds

/-!
# Finding envelopes behind garbage

A link without timers that has nothing buffered is fed garbage and then envelopes. It drops
exactly the garbage if no magic starts within it, not even one that ends in the first envelope,
and it accepts exactly the envelopes.
-/

namespace DataLink

namespace Site.Run

variable {s t : Site} {actions : List Action} {log : Log}

/-- Without a timer for silence, no failsafe is reported. -/
theorem failsafe_not_mem (h : s.Run actions log t) (hnone : s.link.settings.failsafeAfter = none) :
    .failsafe ∉ log.events := by
  induction h with
  | start => exact List.not_mem_nil
  | step run last ih =>
    rw [Log.events_concat, List.mem_append, not_or]
    refine ⟨ih, ?_⟩
    cases Step.of_step? last with
    | feed bytes => exact List.not_mem_nil
    | discard => exact List.not_mem_nil
    | assign write => exact List.not_mem_nil
    | cycle c t hc =>
      have hfails := Link.fails_of_none (run.settings.symm ▸ hnone) c.now
      intro hmem
      exact absurd (hc.failsafe_mem_iff.mp hmem) (Bool.eq_false_iff.mp hfails)

/-- Without a timer for garbage, no input is dropped to reacquire the link. -/
theorem reacquired_not_mem (h : s.Run actions log t)
    (hnone : s.link.settings.reacquireAfter = none) (n : Nat) : .reacquired n ∉ log.events := by
  induction h with
  | start => exact List.not_mem_nil
  | step run last ih =>
    rw [Log.events_concat, List.mem_append, not_or]
    refine ⟨ih, ?_⟩
    cases Step.of_step? last with
    | feed bytes => exact List.not_mem_nil
    | discard => exact List.not_mem_nil
    | assign write => exact List.not_mem_nil
    | cycle c t hc =>
      have hkeeps := Link.reacquires_of_none (run.settings.symm ▸ hnone) c.now
      intro hmem
      exact absurd (hc.reacquired_mem_iff.mp hmem).1 (Bool.eq_false_iff.mp hkeeps)

/-- Without timers, whatever is fed in pieces is a delivery once a cycle follows. -/
theorem delivery {bytes : Bytes} {now : Duration} (h : s.Run (actions ++ [.cycle now]) log t)
    (hdelivers : ∀ a ∈ actions, a.Delivers) (hfed : actions.flatMap Action.fed = bytes)
    (hpatient : s.link.settings.reacquireAfter = none)
    (hcalm : s.link.settings.failsafeAfter = none) : s.Delivery bytes log t := by
  have hall : ∀ a ∈ actions ++ [.cycle now], a.Delivers := by
    rw [List.forall_mem_append]
    exact ⟨hdelivers, List.forall_mem_singleton.mpr (.cycle now)⟩
  refine ⟨⟨_, h, hall, ?_, actions, now, rfl⟩, h.failsafe_not_mem hcalm, ?_⟩
  · rw [List.flatMap_append, hfed]
    exact List.append_nil _
  · exact h.reacquired_not_mem hpatient

end Site.Run

/-- The frame comes from a sender of the document's layout, however that sender was built and
whatever it has emitted and eaten before. -/
def Frame.From (d : Layout.Document) (f : Frame) : Prop :=
  ∃ o tx, Layout.build o d = .ok tx ∧ tx.protocol.Reaches f.sender

/-- The receiving end of a layout reads the frames that come from any other end. -/
theorem Frame.From.readBy {o : Layout.Options} {d : Layout.Document} {rx : Layout} {f : Frame}
    (h : f.From d) (hbuild : Layout.build o d = .ok rx) (hwrites : o.readOnly = false) :
    f.ReadBy rx.protocol := by
  obtain ⟨o', tx, htx, hreach⟩ := h
  have hends := (Layout.mirrors_of_build htx hbuild hwrites).envelopes
  have hmirrors := Protocol.mirrors_of_forall₂ hends
  exact ⟨hreach.plain (Protocol.plain_of_mirrors hends),
    hmirrors.congr hreach.readers.symm rfl⟩

namespace Frame

variable {receiver : Protocol} {frames : List Frame} {garbage : Bytes}

/-- Garbage in which no magic starts is dropped, and the frames behind it are taken. -/
theorem eats_behind (hdistinct : receiver.Distinct) (h : ∀ f ∈ frames, f.ReadBy receiver)
    (hne : frames ≠ [])
    (hmagic : ∀ i < garbage.length, ∀ e ∈ receiver.envelopes,
      ¬ e.header.magic <+: (garbage ++ stream frames).drop i) :
    receiver.Eats (garbage ++ stream frames)
      (List.replicate garbage.length (.drop .unknownMagic) ++
        frames.map fun f => f.bite receiver) [] := by
  have hlong : receiver.magicSize ≤ (stream frames).length := by
    obtain ⟨f, rest, rfl⟩ := List.exists_cons_of_ne_nil hne
    have hfirst := (h f List.mem_cons_self).magicSize_le hdistinct
    rw [stream, List.flatMap_cons, List.length_append]
    exact Nat.le_trans hfirst (Nat.le_add_right _ _)
  exact (Protocol.eats_garbage hlong hmagic).trans (eats hdistinct h)

end Frame

namespace Bite

/-- Each of several dropped bytes is counted. -/
theorem drops_replicate (n : Nat) (fault : WireFault) :
    drops (List.replicate n (.drop fault)) = n := by
  induction n with
  | zero => rfl
  | succ n ih => rw [List.replicate_succ, drops_drop, ih]

/-- Dropped bytes are no accepted envelopes. -/
theorem accepted_replicate (n : Nat) (fault : WireFault) :
    accepted (List.replicate n (.drop fault)) = [] := by
  induction n with
  | zero => rfl
  | succ n ih => rw [List.replicate_succ, accepted_drop, ih]

/-- Dropped bytes assign nothing. -/
theorem writes_replicate (n : Nat) (fault : WireFault) :
    (List.replicate n (.drop fault)).flatMap writes = [] := by
  rw [List.flatMap_eq_nil_iff]
  intro b hb
  rw [List.eq_of_mem_replicate hb, writes]

end Bite

namespace Frame

variable {receiver : Protocol} {frames : List Frame} {garbage : Bytes} {s t : Site} {log : Log}

/-- What a link takes that is delivered garbage and then frames. -/
theorem bites_of_delivery (h : s.Delivery (garbage ++ stream frames) log t)
    (hnoise : s.link.inputNoise = none) (hempty : s.link.input = [])
    (hreaders : s.link.protocol.readers = receiver.readers) (hdistinct : receiver.Distinct)
    (hread : ∀ f ∈ frames, f.ReadBy receiver) (hne : frames ≠ [])
    (hmagic : ∀ i < garbage.length, ∀ e ∈ receiver.envelopes,
      ¬ e.header.magic <+: (garbage ++ stream frames).drop i) :
    log.bites = (List.replicate garbage.length (.drop .unknownMagic) ++
        frames.map fun f => f.bite receiver) ∧ t.link.input = [] := by
  -- The link eats what the delivery brings, and there is one way to eat it.
  obtain ⟨heats, hstop⟩ := h.eats hnoise
  rw [hempty, List.nil_append] at heats
  have hwhole := (eats_behind hdistinct hread hne hmagic).congr hreaders.symm
  exact heats.unique hstop hwhole (Protocol.bite?_nil _)

end Frame

/-- A link finds its way back. Fed garbage in which no magic starts, and then envelopes of any
senders of its layout, it drops exactly the garbage, accepts exactly the envelopes, and applies
each of them once and in order. It does not matter how the bytes are cut and when cycles come in
between. -/
theorem garbage_dropped_exactly {o : Layout.Options} {d : Layout.Document} {rx : Layout}
    {settings : Settings} {entropy : Entropy} {link : Link} {cells : Cells} {s t : Site}
    {garbage : Bytes} {frames : List Frame} {actions : List Action} {now : Duration} {log : Log}
    (hbuild : Layout.build o d = .ok rx) (hwrites : o.readOnly = false)
    (hnew : Link.new rx.protocol settings entropy = .ok link)
    (hpatient : settings.reacquireAfter = none) (hcalm : settings.failsafeAfter = none)
    (hquiet : settings.inputInterference.le .zero = true)
    (hreach : Site.Reaches ⟨link, cells⟩ s) (hempty : s.link.input = [])
    (hframes : ∀ f ∈ frames, f.From d) (hne : frames ≠ [])
    (hmagic : ∀ i < garbage.length, ∀ e ∈ rx.protocol.envelopes,
      ¬ e.header.magic <+: (garbage ++ Frame.stream frames).drop i)
    (hrun : s.Run (actions ++ [.cycle now]) log t) (hdelivers : ∀ a ∈ actions, a.Delivers)
    (hfed : actions.flatMap Action.fed = garbage ++ Frame.stream frames) :
    t.link.stats.errorBytes = s.link.stats.errorBytes + garbage.length ∧
      t.link.stats.validEnvelopes = s.link.stats.validEnvelopes + frames.length ∧
      t.link.stats.validBytes = s.link.stats.validBytes + (Frame.stream frames).length ∧
      log.accepted = frames.map Frame.eaten ∧
      log.linkWrites = frames.flatMap (fun f => f.relays rx.protocol) ∧
      t.cells = s.cells.replay log.linkWrites ∧
      t.link.input = [] := by
  obtain ⟨_, _, hbefore⟩ := hreach
  have hfresh := Link.Fresh.of_new hnew
  have hnoise := hbefore.inputNoise (hfresh.quiet hquiet)
  have hsettings : s.link.settings = settings := hbefore.settings.trans hfresh.settings
  have hreaders : s.link.protocol.readers = rx.protocol.readers :=
    hbefore.readers.trans (congrArg Protocol.readers hfresh.protocol)
  have hdelivery := hrun.delivery hdelivers hfed (hsettings ▸ hpatient) (hsettings ▸ hcalm)
  have hread : ∀ f ∈ frames, f.ReadBy rx.protocol := by
    intro f hf
    exact (hframes f hf).readBy hbuild hwrites
  have hdistinct := (Layout.mirrors_of_build hbuild hbuild hwrites).distinct
  obtain ⟨hbites, hinput⟩ :=
    Frame.bites_of_delivery hdelivery hnoise hempty hreaders hdistinct hread hne hmagic
  have haccepted : log.accepted = frames.map Frame.eaten := by
    rw [Log.accepted, hbites, Bite.accepted_append, Bite.accepted_replicate, Frame.accepted_bites,
      List.nil_append]
  have hlinkWrites : log.linkWrites = frames.flatMap fun f => f.relays rx.protocol := by
    rw [hrun.linkWrites hdelivery.heard, hbites, List.flatMap_append, Bite.writes_replicate,
      Frame.writes_bites, List.nil_append]
  obtain ⟨_, hall, hdelivered, -⟩ := hdelivery.run
  have hstats := hrun.stats
  refine ⟨?_, ?_, ?_, haccepted, hlinkWrites, ?_, hinput⟩
  · rw [hstats, hbites, Bite.drops_append, Bite.drops_replicate, Frame.drops_bites, Nat.add_zero]
  · rw [hstats, haccepted, List.length_map]
  · rw [hstats, hbites, Bite.acceptedBytes_append, Frame.acceptedBytes_bites hread,
      Bite.acceptedBytes, Bite.accepted_replicate, List.map_nil, List.sum_nil, Nat.zero_add]
  · rw [hall.cells, hall.writes hdelivered]

/-! ### A small system

A lamp whose envelope begins with two bytes. It serves for an example.
-/

namespace Lamp

/-- One flag is sent on every second turn. -/
def document : Layout.Document :=
  { cells := [("lit", .bool)]
    envelopes := [⟨"abcd", 2, 0, [.bitfield [⟨"lit", none, false, none⟩]]⟩]
    link := none
    seed := none }

/-- One end of the layout. -/
def lit (writable : Bool) : BitSource := .flag ⟨⟨"lit", writable, false⟩, false⟩

/-- The envelope of the flag at one end. -/
def envelope (writable : Bool) : Envelope :=
  ⟨⟨[0xAB, 0xCD], 2, 0, 0, by decide, by decide⟩, [.bits [lit writable]],
    .empty [.source (lit writable)]⟩

/-- The layout as it is built for one end. -/
def layout (writable : Bool) : Layout :=
  ⟨⟨[envelope writable]⟩, Cells.empty.declare "lit" .bool, .default⟩

/-- The receiver's link before its first cycle. -/
def link : Link := { Gauge.link with protocol := (layout true).protocol, settings := .default }

/-- The lamp is lit. -/
def frame : Frame :=
  { sender := (layout false).protocol
    cells := (layout false).cells.put "lit" (some (.bool true))
    place := 0
    envelope := envelope false
    placed := rfl
    due := rfl }

/-- The frame is cut, and so is the magic that it begins with. -/
def pieces : List Action := [.feed [0xAB, 0xAB], .cycle .zero, .feed [0xCD, 0x80]]

/-- The garbage is the start of a magic. With the first byte of the frame behind it, it is still
not one. -/
theorem garbage_dropped_exactly_lamp :
    ∃ log t, Site.Run ⟨link, (layout true).cells⟩ (pieces ++ [.cycle .zero]) log t ∧
      t.link.stats.errorBytes = 1 ∧ t.link.stats.validEnvelopes = 1 ∧
      log.linkWrites = [⟨"lit", some (.bool true)⟩] := by
  have hsender : Layout.build { Layout.Options.default with readOnly := true } document =
      .ok (layout false) := rfl
  have hreceiver : Layout.build .default document = .ok (layout true) := rfl
  have hnew : Link.new (layout true).protocol .default 0 = .ok link := by
    have hprotocol : (layout true).protocol.verify = .ok () := rfl
    have hvalid : Settings.default.validate = .ok () := by
      simp only [Settings.validate, Settings.default, Settings.checkProbability_zero]
      rfl
    simp only [Link.new, Link.verify, hprotocol, hvalid]
    rfl
  have hrun : ∃ log t, Site.run? ⟨link, (layout true).cells⟩ (pieces ++ [.cycle .zero]) =
      some (log, t) := ⟨_, _, rfl⟩
  obtain ⟨log, t, hrun⟩ := hrun
  have hstream : Frame.stream [frame] = [0xAB, 0xCD, 0x80] := by decide +kernel
  have hframes : ∀ f ∈ [frame], f.From document :=
    List.forall_mem_singleton.mpr ⟨_, _, hsender, .start⟩
  have hmagic : ∀ i < [(0xAB : UInt8)].length, ∀ e ∈ (layout true).protocol.envelopes,
      ¬ e.header.magic <+: ([0xAB] ++ Frame.stream [frame]).drop i := by
    rw [hstream]
    decide
  have hdelivers : ∀ a ∈ pieces, a.Delivers := by
    simp [pieces, Action.Delivers.feed, Action.Delivers.cycle]
  have hfed : pieces.flatMap Action.fed = [0xAB] ++ Frame.stream [frame] := by
    rw [hstream]
    rfl
  have hrelays : [frame].flatMap (fun f => f.relays (layout true).protocol) =
      [⟨"lit", some (.bool true)⟩] := by decide +kernel
  obtain ⟨herror, hvalid, -, -, hwrites, -⟩ := garbage_dropped_exactly hreceiver rfl hnew rfl rfl
    (by decide) ⟨_, _, .start⟩ rfl hframes (List.cons_ne_nil _ _) hmagic (.of_run? hrun) hdelivers
    hfed
  exact ⟨log, t, .of_run? hrun, herror, hvalid, hwrites.trans hrelays⟩

end Lamp

end DataLink
