import Madmail.Lib.Base64
import Madmail.Lib.Bytes

namespace Madmail.PgpVerify
open Lib

/-- How a function that looks at a payload ends. `running` is a loop that has used up
its turns. -/
inductive Scan where
  | returned (accepted : Bool)
  | indexOutOfRange
  | running
  deriving DecidableEq, Repr

/-- The loop over the partial lengths of a packet, from the octet at `i`: where it
stops, or how the function ends in it. -/
def skipPartial (payload : List UInt8) : Nat → Nat → Except Scan Nat
  | 0, _ => .error .running
  | turns + 1, i =>
    match payload[i]? with
    | none => .error .indexOutOfRange
    | some octet =>
      if 224 ≤ octet.toNat ∧ octet.toNat < 255 then
        let partialLen := 1 <<< (octet &&& 0x1F).toNat
        let i := i + (1 + partialLen)
        if payload.length ≤ i then .error (.returned false) else skipPartial payload turns i
      else .ok i

/-- The final length of a packet, of which `i` is the first octet: where the body that
it announces ends. -/
def finalLength (payload : List UInt8) (i : Nat) : Except Scan Nat :=
  match payload[i]? with
  | none => .error .indexOutOfRange
  | some octet =>
    if octet.toNat < 192 then .ok (i + 1 + octet.toNat)
    else if octet.toNat < 224 then
      if payload.length ≤ i + 1 then .error (.returned false)
      else
        match payload[i + 1]? with
        | none => .error .indexOutOfRange
        | some second =>
          let bodyLen := ((octet.toNat - 192) <<< 8) + second.toNat + 192
          .ok (i + 2 + bodyLen)
    else if octet.toNat = 255 then
      if payload.length ≤ i + 4 then .error (.returned false)
      else
        match payload[i + 1]?, payload[i + 2]?, payload[i + 3]?, payload[i + 4]? with
        | some a, some b, some c, some d =>
          let bodyLen := (a.toNat <<< 24) ||| (b.toNat <<< 16) ||| (c.toNat <<< 8) ||| d.toNat
          .ok (i + 5 + bodyLen)
        | _, _, _, _ => .error .indexOutOfRange
    -- a partial length, which the loop has read
    else .error (.returned false)

/-- Where the packet ends whose lengths start at `i`. The positions are at most 2^32 + 5
octets past the payload, so they are far from the bounds of an `int`. -/
def packetEnd (payload : List UInt8) (i : Nat) : Except Scan Nat :=
  match skipPartial payload payload.length i with
  | .error scan => .error scan
  | .ok i => finalLength payload i

def scanPackets (payload : List UInt8) : Nat → Nat → Scan
  | 0, _ => .running
  | turns + 1, i =>
    if i < payload.length then
      match payload[i]? with
      | none => .indexOutOfRange
      | some tag =>
        if tag &&& 0xC0 ≠ 0xC0 then .returned false
        else
          let packetTypeID := tag &&& 0x3F
          if payload.length ≤ i + 1 then .returned false
          else
            match packetEnd payload (i + 1) with
            | .error scan => scan
            | .ok i =>
              if i = payload.length then .returned (packetTypeID = 18)
              else if packetTypeID ≠ 1 ∧ packetTypeID ≠ 3 then .returned false
              else scanPackets payload turns i
    else .returned false

def isEncryptedOpenPGPPayload (payload : List UInt8) : Scan :=
  if payload.length = 0 then .returned false else scanPackets payload (payload.length + 1) 0

def spaces : List (List UInt8) :=
  [[0x09],[0x0A],[0x0B],[0x0C],[0x0D],[0x20],[0xC2,0x85],[0xC2,0xA0],[0xE1,0x9A,0x80],
    [0xE2,0x80,0x80],[0xE2,0x80,0x81],[0xE2,0x80,0x82],[0xE2,0x80,0x83],
    [0xE2,0x80,0x84],[0xE2,0x80,0x85],[0xE2,0x80,0x86],[0xE2,0x80,0x87],
    [0xE2,0x80,0x88],[0xE2,0x80,0x89],[0xE2,0x80,0x8A],[0xE2,0x80,0xA8],
    [0xE2,0x80,0xA9],[0xE2,0x80,0xAF],[0xE2,0x81,0x9F],[0xE3,0x80,0x80]]

def header : List UInt8 := Bytes.ascii "-----BEGIN PGP MESSAGE-----"

def footer : List UInt8 := Bytes.ascii "-----END PGP MESSAGE-----"

def afterBlankLine (p : List UInt8) : Option (List UInt8) :=
  match Bytes.after [0x0A,0x0A] p with
  | some part => some part
  | none => Bytes.after [0x0D,0x0A,0x0D,0x0A] p

def dropChecksum (b64Content : List UInt8) : List UInt8 :=
  match Bytes.lastIndex [0x0A,0x3D] b64Content with
  | some crcIdx => b64Content.take crcIdx
  | none =>
    match Bytes.lastIndex [0x0D,0x0A,0x3D] b64Content with
    | some crcIdx => b64Content.take crcIdx
    | none => b64Content

def compact (b64Content : List UInt8) : List UInt8 :=
  ((b64Content.filter (· ≠ 0x0A)).filter (· ≠ 0x0D)).filter (· ≠ 0x20)

def unarmor (p : List UInt8) : Option (List UInt8) :=
  match afterBlankLine p with
  | none => none
  | some b64WithFooter =>
    match Bytes.lastIndex footer b64WithFooter with
    | none => none
    | some footerIdx =>
      let b64Content := dropChecksum (b64WithFooter.take footerIdx)
      Base64.decode (compact b64Content)

def isValidEncryptedPayload (payload : List UInt8) : Scan :=
  let p := Bytes.trimWords spaces payload
  if header <+: p ∧ footer <:+ p then
    match unarmor p with
    | none => .returned false
    | some b64Decoded => isEncryptedOpenPGPPayload b64Decoded
  else isEncryptedOpenPGPPayload p

end Madmail.PgpVerify
