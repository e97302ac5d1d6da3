import DataLink.Hex
import DataLink.Number.Decimal

/-!
# Faults of configurations and of wire data

A configuration fault is found while a protocol is built and is fatal. A wire fault is
found while bytes are eaten, and the link recovers from it.
-/

namespace DataLink

/-- Why bytes cannot be eaten. -/
inductive WireFault where
  /-- Fewer bytes than needed. More input may mend this. -/
  | insufficient (needed available : Nat)
  | unknownMagic
  | signatureMismatch
  deriving DecidableEq, Repr

/-- The fault in words. -/
def WireFault.message : WireFault → String
  | .insufficient needed available =>
    "insufficient data (" ++ toString available ++ " bytes available, " ++ toString needed ++
      " needed)"
  | .unknownMagic => "unknown envelope magic"
  | .signatureMismatch => "signature mismatch"

/-- Why a protocol cannot be built. -/
inductive ConfigFault where
  /-- Magics of one protocol have one length. -/
  | magicSize (expected found : Nat)
  | emptyMagic
  | duplicateMagic (magic : Bytes)
  | emptyEnvelope (magic : Bytes)
  | noEnvelopes
  /-- A substitute for nil that its field cannot carry. -/
  | nilOutOfRange (value : Int) (bits : Nat)
  | bitWidth (bits : Nat)
  | sendEvery
  | digestBytes (count : Nat)
  | nonceBytes
  | emptyKey
  | duplicateKey (key : Bytes)
  | offset (value : Binary64)
  | hex (text : String) (fault : HexFault)
  deriving DecidableEq, Repr

/-- The fault in words. -/
def ConfigFault.message : ConfigFault → String
  | .magicSize expected found =>
    "invalid magic string length " ++ toString found ++ " (expected " ++ toString expected ++
      "); envelopes' magic strings must be the same length"
  | .emptyMagic => "envelope magic must not be empty"
  | .duplicateMagic magic => "duplicate envelope magic " ++ Hex.render magic
  | .emptyEnvelope magic => "envelope " ++ Hex.render magic ++ " has an empty payload"
  | .noEnvelopes => "protocol has no envelopes"
  | .nilOutOfRange value bits =>
    "value_if_nil " ++ toString value ++ " doesn't fit in " ++ toString bits ++ " bits"
  | .bitWidth bits => "invalid bit width " ++ toString bits ++ " (must be 1..=64)"
  | .sendEvery => "send_every must be at least 1"
  | .digestBytes count =>
    "invalid signature length " ++ toString count ++ " (must be 1..=32 bytes)"
  | .nonceBytes => "nonce must be at least 1 byte"
  | .emptyKey => "signature key must not be empty"
  | .duplicateKey key => "duplicate signature key " ++ Hex.render key
  | .offset value => "offset " ++ value.text .plain ++ " is not finite"
  | .hex text fault => "invalid hex string " ++ quoteText text ++ ": " ++ fault.message

/-- Reads bytes from a configuration. -/
def readHex (text : String) : Except ConfigFault Bytes :=
  (Hex.parse text).mapError (.hex text)

end DataLink
