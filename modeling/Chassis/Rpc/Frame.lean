import Chassis.RpcStatus

/-!
# Frames

On the wire of the RPC protocol every message stands in a frame: a flag, which is zero, the length
in four bytes, the highest first, and the message. A body is a sequence of frames. A call that takes
one message takes the first, but every frame has to be well formed.
-/

set_option autoImplicit false

namespace Chassis.Rpc

inductive FrameFault
  | missing
  | cutOff
  | compressed
  | unknownFlag (flag : Nat)
  | tooLong (length : Nat)
  | malformed (fault : Wire.Fault)
deriving DecidableEq, Repr

/-- The largest message that is read, in bytes. -/
def messageLimit : Nat := 4 * 1024 * 1024

namespace FrameFault

def message : FrameFault → String
  | missing => "Missing request message."
  | cutOff => "Unexpected EOF decoding stream."
  | compressed =>
    "protocol error: received message with compressed-flag but no grpc-encoding was specified"
  | unknownFlag flag =>
    s!"protocol error: received message with invalid compression flag: {flag} " ++
      "(valid flags are 0 and 1), while sending request"
  | tooLong length =>
    s!"Error, decoded message length too large: found {length} bytes, " ++
      s!"the limit is: {messageLimit} bytes"
  | malformed fault => fault.message

def code : FrameFault → Code
  | tooLong _ => .outOfRange
  | _ => .internal

def status (f : FrameFault) : RpcStatus := ⟨f.code, f.message, []⟩

end FrameFault

/-! ## Writing -/

/-- The four bytes of a length, the highest first. -/
def lengthBytes (n : Nat) : List UInt8 :=
  [(n / 0x1000000).toUInt8, (n / 0x10000).toUInt8, (n / 0x100).toUInt8, n.toUInt8]

def writeFrame (message : List UInt8) : List UInt8 :=
  0 :: lengthBytes message.length ++ message

/-! ## Reading -/

def lengthOf (a b c d : UInt8) : Nat :=
  ((a.toNat * 256 + b.toNat) * 256 + c.toNat) * 256 + d.toNat

/-- Reads the frame at the front: its message and the rest, or nothing at the end of the body. A
frame whose message has not begun counts as the end. -/
def readFrame : List UInt8 → Except FrameFault (Option (List UInt8 × List UInt8))
  | [] => .ok none
  | flag :: a :: b :: c :: d :: rest =>
    let length := lengthOf a b c d
    if flag = 1 then .error .compressed
    else if flag ≠ 0 then .error (.unknownFlag flag.toNat)
    else if messageLimit < length then .error (.tooLong length)
    else if length ≤ rest.length then .ok (some (rest.take length, rest.drop length))
    else if rest.isEmpty then .ok none
    else .error .cutOff
  | _ => .error .cutOff

/-- Reads the messages of all frames, at most `fuel` of them. -/
def readFrames {α : Type} (decode : List UInt8 → Except Wire.Fault α) :
    Nat → List UInt8 → Except FrameFault (List α)
  | 0, _ => .ok []
  | fuel + 1, bytes => do
    match ← readFrame bytes with
    | none => .ok []
    | some (message, rest) =>
      let a ← (decode message).mapError .malformed
      .ok (a :: (← readFrames decode fuel rest))

/-- The one message of a body. A frame has at least five bytes, so there are fewer frames than
bytes. -/
def readMessage {α : Type} (decode : List UInt8 → Except Wire.Fault α) (body : List UInt8) :
    Except FrameFault α := do
  match ← readFrames decode body.length body with
  | [] => .error .missing
  | a :: _ => .ok a

end Chassis.Rpc
