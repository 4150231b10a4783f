import Chassis.Proofs.Wire.RoundTrip
import Chassis.RpcStatus
import Mathlib.Data.List.Basic

/-!
# The records of a status are read back

> **the bytes of a status hold its code, its message and its records**
> (`RpcStatus.readAll_statusBytes`, `RpcStatus.readDetails_statusBytes`).

The bytes of a status are shorter than 2⁶⁴, as all bytes in memory are, and so are those of each
record in it. A record of a type that has no message is not among the packed ones in the first
place, so nothing is said of it here.
-/

set_option autoImplicit false

namespace Chassis.RpcStatus

open Wire

/-- The type of the record is one of those that can be packed. -/
def IsPackable (d : Detail) : Prop := ∀ t v, d ≠ .other t v

variable {order : EntryOrder}

/-! ## One record -/

theorem unpackAs_write {m : Message} {name : String} {make : m.Value → Option Detail} {v : m.Value}
    {d : Detail} (hn : m.numbered = true) (hd : m.depth ≤ 100) (hv : m.IntegersFit v)
    (h : (m.write order v).length < 0x10000000000000000) (hmake : make v = some d) :
    unpackAs m name make (m.write order v) = .ok (some d) := by
  rw [unpackAs, Message.readAll_write name hn hd hv h]
  exact congrArg Except.ok hmake

theorem map_parts {α β : Type} {parts : α → β} {make : β → α} (h : ∀ a, make (parts a) = a)
    (vs : List α) : (vs.map parts).map make = vs := by
  rw [List.map_map]
  exact List.map_id'' h vs

/-- What was packed is unpacked. -/
theorem unpack_payload {d : Detail} {bytes : List UInt8} (h : payload order d = some bytes)
    (hlen : bytes.length < 0x10000000000000000) :
    unpack (typeUrl d.typeName) bytes = .ok (some d) := by
  cases d with
  | debug info =>
    obtain rfl := Option.some.inj h
    exact unpackAs_write rfl (by decide) ⟨trivial, trivial, trivial⟩ hlen rfl
  | request info =>
    obtain rfl := Option.some.inj h
    exact unpackAs_write rfl (by decide) ⟨trivial, trivial, trivial⟩ hlen rfl
  | resource info =>
    obtain rfl := Option.some.inj h
    exact unpackAs_write rfl (by decide) ⟨trivial, trivial, trivial, trivial, trivial⟩ hlen rfl
  | quota vs =>
    obtain rfl := Option.some.inj h
    refine unpackAs_write rfl (by decide) ⟨?_, trivial⟩ hlen ?_
    · exact fun _ _ => ⟨trivial, trivial, trivial⟩
    · refine congrArg (fun vs => some (Detail.quota vs)) ?_
      exact map_parts (fun _ => rfl) vs
  | precondition vs =>
    obtain rfl := Option.some.inj h
    refine unpackAs_write rfl (by decide) ⟨?_, trivial⟩ hlen ?_
    · exact fun _ _ => ⟨trivial, trivial, trivial, trivial⟩
    · refine congrArg (fun vs => some (Detail.precondition vs)) ?_
      exact map_parts (fun _ => rfl) vs
  | badRequest vs =>
    obtain rfl := Option.some.inj h
    refine unpackAs_write rfl (by decide) ⟨?_, trivial⟩ hlen ?_
    · exact fun _ _ => ⟨trivial, trivial, trivial⟩
    · refine congrArg (fun vs => some (Detail.badRequest vs)) ?_
      exact map_parts (fun _ => rfl) vs
  | error info =>
    obtain rfl := Option.some.inj h
    exact unpackAs_write rfl (by decide) ⟨trivial, trivial, trivial, trivial⟩ hlen rfl
  | other t v => cases h

/-! ## All records -/

theorem payload_eq_none_iff {d : Detail} : payload order d = none ↔ ∃ t v, d = .other t v := by
  cases d <;> simp [payload]

/-- What was packed is unpacked, record for record. -/
theorem unpackAll_filterMap_pack : ∀ {records : List Detail}, (∀ d ∈ records, IsPackable d) →
    (∀ x ∈ records.filterMap (pack order), x.2.1.length < 0x10000000000000000) →
    unpackAll (records.filterMap (pack order)) = .ok records
  | [], _, _ => rfl
  | d :: records, hp, hlen => by
    cases hd : payload order d with
    | none =>
      obtain ⟨t, v, he⟩ := payload_eq_none_iff.1 hd
      exact absurd he (hp d List.mem_cons_self t v)
    | some bytes =>
      have hpack : pack order d = some (typeUrl d.typeName, bytes, ()) := by rw [pack, hd]; rfl
      rw [List.filterMap_cons_some hpack] at hlen ⊢
      have hbytes := hlen _ List.mem_cons_self
      have ih := unpackAll_filterMap_pack (fun d' h' => hp d' (List.mem_cons_of_mem d h'))
        (fun x hx => hlen x (List.mem_cons_of_mem _ hx))
      rw [unpackAll, unpack_payload hd hbytes, ok_bind, ih, ok_bind]
      rfl

abbrev Parts := Int × String × List (String × List UInt8 × Unit) × Unit

/-- The bytes of a packed record are no longer than those of the status. -/
theorem length_packed_le {v : Parts} {x : String × List UInt8 × Unit} (hx : x ∈ v.2.2.1) :
    x.2.1.length ≤ (statusMessage.write order v).length := by
  have hany : Occurrence.delimited 3 (packedMessage.write order x) ∈
      statusMessage.occurrences order v := by
    refine List.mem_append_right _ (List.mem_append_right _ (List.mem_append_left _ ?_))
    exact List.mem_map.2 ⟨x, hx, rfl⟩
  refine Nat.le_trans ?_ (Message.length_contents_le hany)
  obtain ⟨url, bytes, rest⟩ := x
  cases bytes with
  | nil => exact Nat.zero_le _
  | cons b bytes =>
    have hvalue : Occurrence.delimited 2 (b :: bytes) ∈
        packedMessage.occurrences order (url, b :: bytes, rest) :=
      List.mem_append_right _ List.mem_cons_self
    exact Message.length_contents_le hvalue

theorem number_fits (c : Code) :
    -0x80000000 ≤ (c.number : Int) ∧ (c.number : Int) < 0x80000000 := by
  cases c <;> decide

section

variable {code : Code} {message : String} {records : List Detail}

/-- **The code and the message of a status are read back**, with the packed records. -/
theorem readAll_statusBytes
    (hlen : (statusBytes order code message records).length < 0x10000000000000000) :
    statusMessage.readAll "Status" (statusBytes order code message records) =
      .ok (show Parts from ((code.number : Int), message, records.filterMap (pack order), ())) := by
  refine Message.readAll_write "Status" rfl (by decide) ?_ hlen
  exact ⟨number_fits code, trivial, fun _ _ => ⟨trivial, trivial, trivial⟩, trivial⟩

/-- **The records of a status are read back.** -/
theorem readDetails_statusBytes (hp : ∀ d ∈ records, IsPackable d)
    (hlen : (statusBytes order code message records).length < 0x10000000000000000) :
    readDetails (statusBytes order code message records) = .ok records := by
  have hpacked := unpackAll_filterMap_pack hp fun x hx =>
    Nat.lt_of_le_of_lt (length_packed_le (v := (code.number, message, _, ())) hx) hlen
  exact (congrArg (· >>= _) (readAll_statusBytes hlen)).trans hpacked

end

/-! ## Lengths -/

/-- A packed record is as long as its address and its bytes make it. -/
theorem length_packedMessage {order order' : EntryOrder} (url : String) {a b : List UInt8}
    (h : a.length = b.length) :
    (packedMessage.write order (show String × List UInt8 × Unit from (url, a, ()))).length =
      (packedMessage.write order' (show String × List UInt8 × Unit from (url, b, ()))).length := by
  have hvalue : (Field.bytes.write order 2 a).length = (Field.bytes.write order' 2 b).length := by
    cases a with
    | nil =>
      obtain rfl : b = [] := List.length_eq_zero_iff.1 h.symm
      rfl
    | cons x xs =>
      cases b with
      | nil => cases h
      | cons y ys => exact length_writeDelimited h
  have hparts : ∀ (o : EntryOrder) (bs : List UInt8),
      (packedMessage.write o (show String × List UInt8 × Unit from (url, bs, ()))).length =
        (writeNonEmpty 1 url).length + (Field.bytes.write o 2 bs).length := by
    intro o bs
    exact List.length_append.trans (congrArg (_ + ·) (List.length_append.trans (Nat.add_zero _)))
  rw [hparts, hparts, hvalue]

def packedBytes (order : EntryOrder) (x : String × List UInt8 × Unit) : List UInt8 :=
  writeDelimited 3 (packedMessage.write order x)

theorem length_pack (order order' : EntryOrder) (d : Detail) :
    ((pack order d).toList.flatMap (packedBytes order)).length =
      ((pack order' d).toList.flatMap (packedBytes order')).length := by
  have hone : ∀ {m : Message} {v : m.Value} {url : String},
      ([(url, m.write order v, ())].flatMap (packedBytes order)).length =
      ([(url, m.write order' v, ())].flatMap (packedBytes order')).length := by
    intro m v url
    rw [List.flatMap_singleton, List.flatMap_singleton]
    exact length_writeDelimited (length_packedMessage url (m.length_write order order' v))
  cases d with
  | other t v => rfl
  | _ => exact hone

/-- A status takes as many bytes in any order of the entries of its records. -/
theorem length_statusBytes (order order' : EntryOrder) (code : Code) (message : String)
    (records : List Detail) : (statusBytes order code message records).length =
      (statusBytes order' code message records).length := by
  have hpacked : ((records.filterMap (pack order)).flatMap (packedBytes order)).length =
      ((records.filterMap (pack order')).flatMap (packedBytes order')).length := by
    rw [List.filterMap_eq_flatMap_toList, List.filterMap_eq_flatMap_toList, List.flatMap_assoc,
      List.flatMap_assoc]
    exact length_flatMap_congr fun d _ => length_pack order order' d
  have hparts : ∀ o : EntryOrder, (statusBytes o code message records).length =
      (Field.integer.write o 1 (code.number : Int)).length + ((writeNonEmpty 2 message).length +
        (((records.filterMap (pack o)).flatMap (packedBytes o)).length + 0)) := by
    intro o
    refine List.length_append.trans (congrArg (_ + ·) ?_)
    refine List.length_append.trans (congrArg (_ + ·) ?_)
    exact List.length_append
  rw [hparts, hparts, hpacked]
  rfl

end Chassis.RpcStatus
