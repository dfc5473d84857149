import Mathlib

namespace RdmaExps.Wire

abbrev Byte := UInt8

/-- How a host keeps the bytes of a number in memory. -/
inductive ByteOrder where
  | big
  | little
  deriving DecidableEq, Repr

/-- The bytes from the most significant one on, which is the order on the network. -/
def bigEndian (x : UInt32) : List Byte :=
  [(x.toNat / 2 ^ 24).toUInt8, (x.toNat / 2 ^ 16).toUInt8, (x.toNat / 2 ^ 8).toUInt8, x.toNat.toUInt8]

def fromBigEndian (bytes : List Byte) : UInt32 :=
  (bytes.foldl (fun value (byte : Byte) => value * 256 + byte.toNat) 0).toUInt32

def ByteOrder.store (order : ByteOrder) (x : UInt32) : List Byte :=
  match order with
  | .big => bigEndian x
  | .little => (bigEndian x).reverse

def ByteOrder.load (order : ByteOrder) (bytes : List Byte) : UInt32 :=
  match order with
  | .big => fromBigEndian bytes
  | .little => fromBigEndian bytes.reverse

/-- The number whose bytes in memory are those of `x` in network order. -/
def htonl (order : ByteOrder) (x : UInt32) : UInt32 := order.load (bigEndian x)

def ntohl (order : ByteOrder) (x : UInt32) : UInt32 := fromBigEndian (order.store x)

@[simp] theorem length_bigEndian (x : UInt32) : (bigEndian x).length = 4 := rfl

@[simp] theorem length_store (order : ByteOrder) (x : UInt32) : (order.store x).length = 4 := by
  cases order <;> rfl

theorem fromBigEndian_bigEndian (x : UInt32) : fromBigEndian (bigEndian x) = x := by
  have bound := x.toNat_lt
  apply UInt32.toNat.inj
  simp only [fromBigEndian, bigEndian, List.foldl_cons, List.foldl_nil, Nat.toUInt8_eq, Nat.toUInt32_eq,
    UInt8.toNat_ofNat', UInt32.toNat_ofNat']
  omega

theorem bigEndian_fromBigEndian {bytes : List Byte} (four : bytes.length = 4) :
    bigEndian (fromBigEndian bytes) = bytes := by
  obtain ⟨a, b, c, d, rfl⟩ : ∃ a b c d, bytes = [a, b, c, d] := List.length_eq_four.mp four
  have ha := a.toNat_lt
  have hb := b.toNat_lt
  have hc := c.toNat_lt
  have hd := d.toNat_lt
  simp only [fromBigEndian, bigEndian, List.foldl_cons, List.foldl_nil, Nat.toUInt8_eq, Nat.toUInt32_eq,
    UInt32.toNat_ofNat', List.cons.injEq, and_true]
  refine ⟨?_, ?_, ?_, ?_⟩ <;>
  · apply UInt8.toNat.inj
    rw [UInt8.toNat_ofNat']
    omega

namespace ByteOrder

variable (order : ByteOrder)

theorem store_load {bytes : List Byte} (four : bytes.length = 4) : order.store (order.load bytes) = bytes := by
  cases order with
  | big => exact bigEndian_fromBigEndian four
  | little =>
    rw [load, store, bigEndian_fromBigEndian (by simpa using four), List.reverse_reverse]

theorem store_htonl (x : UInt32) : order.store (htonl order x) = bigEndian x :=
  order.store_load (length_bigEndian x)

theorem ntohl_load {bytes : List Byte} (four : bytes.length = 4) :
    ntohl order (order.load bytes) = fromBigEndian bytes := by
  rw [ntohl, order.store_load four]

theorem htonl_load {bytes : List Byte} (four : bytes.length = 4) : htonl order (order.load bytes) = fromBigEndian bytes := by
  cases order with
  | big => exact fromBigEndian_bigEndian _
  | little =>
    rw [htonl, load, load, bigEndian_fromBigEndian (by simpa using four), List.reverse_reverse]

theorem store_ntohl (x : UInt32) : order.store (ntohl order x) = bigEndian x := by
  cases order with
  | big => rw [ntohl, store, store, fromBigEndian_bigEndian]
  | little =>
    rw [ntohl, store, store, bigEndian_fromBigEndian (by simp), List.reverse_reverse]

/-- A number sent in network order arrives whatever the orders of the two hosts are. -/
theorem ntohl_load_htonl (sender : ByteOrder) (x : UInt32) :
    ntohl order (order.load (sender.store (htonl sender x))) = x := by
  rw [store_htonl, ntohl_load order (length_bigEndian x), fromBigEndian_bigEndian]

end ByteOrder

end RdmaExps.Wire
