import DataLink.Layout.Document
import DataLink.Link

/-!
# Building layouts

A layout document becomes a protocol bound to named cells. Every signature must have a
key of its own. If there is a seed, their nonces come from streams whose seeds are consecutive
numbers, so they differ as well.
-/

namespace DataLink

/-- Why a file cannot be opened. -/
inductive OpenFault where
  | missing
  /-- The path leads through a file. -/
  | notDirectory
  | nameTooLong
  | denied
  deriving DecidableEq, Repr

/-- The fault in words, with its number. -/
def OpenFault.message : OpenFault → String
  | .missing => "No such file or directory (os error 2)"
  | .notDirectory => "Not a directory (os error 20)"
  | .nameTooLong => "File name too long (os error 36)"
  | .denied => "Permission denied (os error 13)"

/-- Why a layout file cannot be loaded. -/
inductive LoadFault where
  | unopened (path : String) (fault : OpenFault)
  | notRegular (path : String)
  | tooLarge (path : String) (bytes : Nat)
  /-- The file grew beyond the limit while it was read. -/
  | grown (path : String)
  | notText (path : String)
  deriving DecidableEq, Repr

/-- The fault in words. -/
def LoadFault.message : LoadFault → String
  | .unopened path fault => "failed opening layout " ++ path ++ ": " ++ fault.message
  | .notRegular path => "not a regular file: " ++ path
  | .tooLarge path bytes =>
    "layout file too large (" ++ toString bytes ++ " bytes): " ++ path
  | .grown path => "layout file too large while reading: " ++ path
  | .notText path => "failed reading layout " ++ path ++ ": stream did not contain valid UTF-8"

/-- Why a layout cannot be used. -/
inductive LayoutFault where
  | load (fault : LoadFault)
  | document (fault : JsonFault)
  | tooManyEnvelopes (limit count : Nat)
  /-- An offset on a field that carries no float. -/
  | offset (cell : String)
  /-- A substitute for nil that is no value of the cell. -/
  | valueIfNil (cell : String) (value : Json)
  | integerWidth (cell : String) (bytes : Nat)
  | floatWidth (cell : String) (bytes : Nat)
  /-- A boolean source of several bits. -/
  | wideFlag (cell : String)
  | cell (fault : CellFault)
  | config (fault : ConfigFault)
  | link (fault : LinkFault)

/-- The fault in words. -/
def LayoutFault.message : LayoutFault → String
  | .load fault => "failed to load layout: " ++ fault.message
  | .document _ => "layout is not valid JSON"
  | .tooManyEnvelopes limit count =>
    invalid ("envelope count exceeds configured max (" ++ toString limit ++ "): " ++
      toString count)
  | .offset name => invalid ("cell " ++ name ++ ": offset only applies to float cells")
  | .valueIfNil name value =>
    invalid ("cell " ++ name ++ ": unusable value_if_nil " ++ value.render)
  | .integerWidth name bytes =>
    invalid ("cell " ++ name ++ ": " ++ toString bytes ++
      " bytes is not an integer width (1, 2, 4 or 8)")
  | .floatWidth name bytes =>
    invalid ("cell " ++ name ++ ": " ++ toString bytes ++
      " bytes is not a float width (2, 4 or 8)")
  | .wideFlag name => invalid ("cell " ++ name ++ ": bool sources are one bit wide")
  | .cell fault => fault.message
  | .config fault => fault.message
  | .link fault => fault.message
where
  /-- A layout that makes no sense. -/
  invalid (reason : String) : String := "invalid layout: " ++ reason

namespace Layout

/-- How layouts are loaded and built. -/
structure Options where
  /-- Larger files are refused. -/
  maxFileBytes : Nat
  maxEnvelopes : Nat
  /-- Whether the link only reads its cells. -/
  readOnly : Bool
  /-- Overrides the document's seed for nonces. -/
  seed : Option UInt64
  /-- Where nonces come from if there is no seed. -/
  entropy : Entropy

/-- Limits that suit a link, cells that are written, and no seed. -/
def Options.default : Options := ⟨256 * 1024, 256, false, none, 0⟩

/-- What the builder keeps from one signature to the next. -/
structure Signing where
  /-- Keys in use. -/
  keys : List Bytes
  /-- Signatures built so far. -/
  count : Nat
  deriving DecidableEq, Repr

/-- No signature built yet. -/
def Signing.start : Signing := ⟨[], 0⟩

/-- What building depends on besides the description. -/
structure Context where
  cells : Cells
  readOnly : Bool
  /-- The nonces of every signature, in the order in which the signatures are built. -/
  nonces : Nat → Keystream

/-- How a described part is attached to its cell. -/
def Context.binding (c : Context) (cell : String) (retained : Bool) : Binding :=
  { cell, writable := !c.readOnly, retained }

/-- The kind of a described part's cell. -/
def Context.kind (c : Context) (cell : String) : Except LayoutFault CellKind :=
  ((c.cells.lookup cell).map Cell.kind).mapError .cell

/-- A substitute for nil, or the default if there is none. -/
def substitute {α : Type} (cell : String) (value : Option Json) (read : Json → Option α)
    (default : α) : Except LayoutFault α :=
  match value with
  | none => .ok default
  | some json =>
    match read json with
    | some a => .ok a
    | none => .error (.valueIfNil cell json)

/-- The width of an integer field. -/
def integerWidth (d : FieldDoc) : Except LayoutFault IntWidth :=
  match IntWidth.ofBytes? d.bytes with
  | some width => .ok width
  | none => .error (.integerWidth d.cell d.bytes)

/-- The width of a float field. -/
def floatWidth (d : FieldDoc) : Except LayoutFault FloatWidth :=
  match FloatWidth.ofBytes? d.bytes with
  | some width => .ok width
  | none => .error (.floatWidth d.cell d.bytes)

/-- Builds a field. -/
def field (c : Context) (d : FieldDoc) : Except LayoutFault Field := do
  let kind ← c.kind d.cell
  let binding := c.binding d.cell d.retained
  if d.offset.isSome && kind != .float then throw (.offset d.cell)
  match kind with
  | .signed =>
    let valueIfNil ← substitute d.cell d.valueIfNil Json.integer? 0
    let width ← integerWidth d
    (Field.ofSigned binding width valueIfNil).mapError .config
  | .unsigned =>
    let valueIfNil ← substitute d.cell d.valueIfNil Json.natural? 0
    let width ← integerWidth d
    (Field.ofUnsigned binding width valueIfNil).mapError .config
  | .float =>
    let _ ← substitute d.cell d.valueIfNil (fun _ => none) ()
    let width ← floatWidth d
    (Field.ofFloat binding width d.offset).mapError .config
  | .bool => throw (.cell (.wrongKind d.cell .bool [.signed, .unsigned, .float]))

/-- Builds a bit source. -/
def source (c : Context) (d : SourceDoc) : Except LayoutFault BitSource := do
  let kind ← c.kind d.cell
  let binding := c.binding d.cell d.retained
  match kind with
  | .bool =>
    if (d.bits.getD 1) ≠ 1 then throw (.wideFlag d.cell)
    let valueIfNil ← substitute d.cell d.valueIfNil Json.bool? false
    return .flag ⟨binding, valueIfNil⟩
  | .unsigned =>
    let valueIfNil ← substitute d.cell d.valueIfNil Json.natural? 0
    (BitSource.ofUnsigned binding (d.bits.getD 64) valueIfNil).mapError .config
  | other => throw (.cell (.wrongKind d.cell other [.bool, .unsigned]))

/-- Takes a key into use. An empty one is passed over, as the signature will refuse it. -/
def Signing.useKey (s : Signing) (key : Bytes) : Except LayoutFault Signing :=
  if key = [] then .ok s
  else if s.keys.contains key then .error (.config (.duplicateKey key))
  else .ok { s with keys := key :: s.keys }

mutual

/-- Builds a packet. A signature's packets are built before the signature itself. -/
def packet (c : Context) : PacketDoc → Signing → Except LayoutFault (Packet × Signing)
  | .value d, s => (field c d).map fun f => (.field f, s)
  | .bitfield ds, s => (ds.mapM (source c)).map fun sources => (.bits sources, s)
  | .sequence ds, s => (packets c ds s).map fun (ps, s) => (.sequence ps, s)
  | .signature nonceBytes digestBytes keyText ds, s => do
    let key ← (readHex keyText).mapError .config
    let s ← s.useKey key
    let (ps, s) ← packets c ds s
    let signature ←
      (Signature.new nonceBytes digestBytes key (c.nonces s.count)).mapError .config
    return (.signature signature ps, { s with count := s.count + 1 })

/-- Builds packets in order. -/
def packets (c : Context) : List PacketDoc → Signing → Except LayoutFault (List Packet × Signing)
  | [], s => .ok ([], s)
  | d :: rest, s => do
    let (p, s) ← packet c d s
    let (ps, s) ← packets c rest s
    return (p :: ps, s)

end

/-- Builds envelopes in order. -/
def envelopes (c : Context) : List EnvelopeDoc → Signing →
    Except LayoutFault (List Envelope × Signing)
  | [], s => .ok ([], s)
  | d :: rest, s => do
    let magic ← (readHex d.magic).mapError .config
    let (ps, s) ← packets c d.packets s
    let e ← (Envelope.new magic d.sendEvery d.sendOffset ps).mapError .config
    let (es, s) ← envelopes c rest s
    return (e :: es, s)

end Layout

/-- A protocol with its named cells and the settings for its link. -/
structure Layout where
  protocol : Protocol
  cells : Cells
  settings : Settings

namespace Layout

/-- Declares all cells of a document. -/
def declareAll (cells : List (String × CellKind)) : Cells :=
  cells.foldl (fun declared (name, kind) => declared.declare name kind) .empty

/-- The nonces of every signature. A seed of the options goes before one of the document. -/
def Options.nonces (o : Options) (d : Document) : Nat → Keystream :=
  match o.seed.or d.seed with
  | some seed => fun k => .ofSeed (seed + UInt64.ofNat k)
  | none => o.entropy.nonces

/-- Builds a layout from its document. -/
def build (options : Options) (d : Document) : Except LayoutFault Layout := do
  if options.maxEnvelopes < d.envelopes.length then
    throw (.tooManyEnvelopes options.maxEnvelopes d.envelopes.length)
  let cells := declareAll d.cells
  let (es, _) ← envelopes ⟨cells, options.readOnly, options.nonces d⟩ d.envelopes .start
  let protocol ← (Protocol.new es).mapError .config
  return ⟨protocol, cells, d.link.getD .default⟩

/-- Reads a document and builds its layout. -/
def ofText (options : Options) (text : String) : Except LayoutFault Layout :=
  match Document.ofText text with
  | .error fault => .error (.document fault)
  | .ok d => build options d

/-- What stands at a path. A file has the length that was reported for it before reading,
and the content that was then found. -/
inductive FileState where
  | unopened (fault : OpenFault)
  | notRegular
  | file (length : Nat) (content : ByteArray)

/-- Why the content of a file is not used. -/
inductive ReadFault where
  | notText
  | grown
  deriving DecidableEq, Repr

/-- The largest length that can be counted. -/
def maxLength : Nat := UInt64.size - 1

/-- How many bytes of a file are looked at: one more than the limit, if there is such a length. -/
def readLength (limit : Nat) : Nat := if limit < maxLength then limit + 1 else limit

/-- The text of a file, if it is within the limit. What lies beyond the bytes that are looked at
stays unread. -/
def readLimited (limit : Nat) (content : ByteArray) : Except ReadFault String :=
  match String.fromUTF8? (content.extract 0 (min content.size (readLength limit))) with
  | none => .error .notText
  | some text => if limit < text.utf8ByteSize then .error .grown else .ok text

/-- Loads a file whose text `read` makes a layout of. The length is checked before reading and once
more after it. -/
def loadWith (read : String → Except LayoutFault Layout) (limit : Nat) (path : String) :
    FileState → Except LayoutFault Layout
  | .unopened fault => .error (.load (.unopened path fault))
  | .notRegular => .error (.load (.notRegular path))
  | .file length content =>
    if limit < length then .error (.load (.tooLarge path length))
    else
      match readLimited limit content with
      | .error .notText => .error (.load (.notText path))
      | .error .grown => .error (.load (.grown path))
      | .ok text => read text

/-- Loads a layout file. -/
def load (options : Options) (path : String) (file : FileState) : Except LayoutFault Layout :=
  loadWith (ofText options) options.maxFileBytes path file

/-- A link for the layout, with the layout's cells. -/
def link (l : Layout) (entropy : Entropy) : Except LayoutFault Link :=
  (Link.new l.protocol l.settings entropy).mapError .link

end Layout

end DataLink
