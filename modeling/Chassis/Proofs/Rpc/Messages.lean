import Chassis.Proofs.Wire.RoundTrip
import Chassis.Rpc.Service

/-!
# The one message of a body

> **a message that is not too long is read back from its frame** (`readMessage_writeFrame`).

A frame holds the length of its message in four bytes, and the reader refuses any length above the
limit before it looks at the message. So the limit is the only bound there is: it is far below what
four bytes can hold, and far below what a length inside a message can be.
-/

set_option autoImplicit false

namespace Chassis.Rpc

open Text.Utf8

/-! ## Frames -/

theorem lengthOf_lengthBytes {n : Nat} (h : n < 0x100000000) :
    lengthOf (n / 0x1000000).toUInt8 (n / 0x10000).toUInt8 (n / 0x100).toUInt8 n.toUInt8 = n := by
  have hbyte : ∀ m : Nat, m.toUInt8.toNat = m % 0x100 := by
    intro m
    simp only [Nat.toUInt8_eq, UInt8.toNat_ofNat']
  simp only [lengthOf, hbyte]
  omega

theorem length_writeFrame (message : List UInt8) :
    (writeFrame message).length = 5 + message.length := by
  simp only [writeFrame, lengthBytes, List.length_cons, List.length_append, List.length_nil]

/-- A frame is read back, and what follows it is left alone. -/
theorem readFrame_writeFrame {message : List UInt8} (h : message.length ≤ messageLimit)
    (rest : List UInt8) : readFrame (writeFrame message ++ rest) = .ok (some (message, rest)) := by
  have hlength := lengthOf_lengthBytes (n := message.length)
    (Nat.lt_of_le_of_lt h (by decide : messageLimit < 0x100000000))
  have hfits : message.length ≤ (message ++ rest).length := by simp
  simp only [writeFrame, lengthBytes, List.cons_append, List.nil_append, readFrame, hlength,
    if_neg (Nat.not_lt.2 h), if_pos hfits, List.take_left, List.drop_left]
  rfl

/-- **The one message of a body is read back.** -/
theorem readMessage_writeFrame {α : Type} {decode : List UInt8 → Except Wire.Fault α}
    {message : List UInt8} {a : α} (h : message.length ≤ messageLimit)
    (hread : decode message = .ok a) : readMessage decode (writeFrame message) = .ok a := by
  have hframe := readFrame_writeFrame h []
  rw [List.append_nil] at hframe
  have hdecode : (decode message).mapError FrameFault.malformed = .ok a := by
    rw [hread]
    rfl
  have hnone : readFrames decode (4 + message.length) [] = .ok [] := by
    rw [Nat.add_comm]
    rfl
  rw [readMessage, length_writeFrame, show 5 + message.length = 4 + message.length + 1 by omega,
    readFrames, hframe, ok_bind]
  simp only [hdecode, ok_bind, hnone]

/-- A message that is too long is refused before it is looked at. -/
theorem readMessage_of_long {α : Type} {decode : List UInt8 → Except Wire.Fault α}
    {message : List UInt8} (h : messageLimit < message.length)
    (hlength : message.length < 0x100000000) :
    readMessage decode (writeFrame message) = .error (.tooLong message.length) := by
  have hframe : readFrame (writeFrame message) = .error (.tooLong message.length) := by
    simp only [writeFrame, lengthBytes, List.cons_append, List.nil_append, readFrame,
      lengthOf_lengthBytes hlength, if_pos h]
    rfl
  rw [readMessage, length_writeFrame, show 5 + message.length = 4 + message.length + 1 by omega,
    readFrames, hframe]
  rfl

/-! ## Messages -/

theorem readGet_writeGet {id : String} (h : (writeGet id).length < 0x10000000000000000) :
    readGet (writeGet id) = .ok id := by
  have hread : getRequest.readAll "GetUserRequest" (writeGet id) =
      .ok (show OneText from (id, ())) :=
    Wire.Message.readAll_write _ (by decide) (by decide) ⟨trivial, trivial⟩ h
  rw [readGet, hread]
  rfl

theorem readCreate_writeCreate {new : NewUser}
    (h : (writeCreate new).length < 0x10000000000000000) :
    readCreate (writeCreate new) = .ok new := by
  have hread : createRequest.readAll "CreateUserRequest" (writeCreate new) =
      .ok (show String × String × Unit from (new.name, new.email, ())) :=
    Wire.Message.readAll_write _ (by decide) (by decide) ⟨trivial, trivial, trivial⟩ h
  rw [readCreate, hread]
  rfl

theorem readUser_writeUser {u : User} (h : (writeUser u).length < 0x10000000000000000) :
    readUser (writeUser u) = .ok u := by
  have hread : userMessage.readAll "User" (writeUser u) =
      .ok (show String × String × String × Unit from (u.id, u.name, u.email, ())) :=
    Wire.Message.readAll_write _ (by decide) (by decide) ⟨trivial, trivial, trivial, trivial⟩ h
  rw [readUser, hread]
  rfl

end Chassis.Rpc
