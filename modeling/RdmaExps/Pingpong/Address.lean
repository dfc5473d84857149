import RdmaExps.Wire.ByteOrder
import RdmaExps.Wire.Hex

namespace RdmaExps.Pingpong

open RdmaExps.Wire

/-- The sixteen bytes of `union ibv_gid`. -/
structure Gid where
  raw : List Byte
  size : raw.length = 16

/-- LIDs have sixteen bits, queue pair and packet sequence numbers 24. -/
structure PingpongDest where
  lid : UInt32
  qpn : UInt32
  psn : UInt32
  gid : Gid
  lidFits : lid.toNat < 16 ^ 4
  qpnFits : qpn.toNat < 16 ^ 6
  psnFits : psn.toNat < 16 ^ 6

/-- `sizeof "0000:000000:000000:00000000000000000000000000000000"` -/
def MSG_SIZE : Nat := 52

/-- The bytes of `raw[i]`. -/
def Gid.word (gid : Gid) (i : Nat) : List Byte := (gid.raw.drop (4 * i)).take 4

def gidToWireGid (order : ByteOrder) (gid : Gid) : List Char :=
  (List.range 4).flatMap fun i => printHex 8 (htonl order (order.load (gid.word i))).toNat

def wireGidToGid (order : ByteOrder) (wgid : List Char) : Option (List Byte) :=
  ((List.range 4).mapM fun i =>
    (scanHex ((wgid.drop (8 * i)).take 8)).map fun found => order.store (ntohl order found.1)).map List.flatten

/-- `sprintf(msg, "%04x:%06x:%06x:%s", ..)` -/
def message (order : ByteOrder) (dest : PingpongDest) : List Char :=
  printHex 4 dest.lid.toNat ++ ':' :: (printHex 6 dest.qpn.toNat ++ ':' :: (printHex 6 dest.psn.toNat ++
    ':' :: gidToWireGid order dest.gid))

/-- `sscanf(msg, "%x:%x:%x:%s", ..)` and `wire_gid_to_gid` -/
def scanMessage (order : ByteOrder) (msg : List Char) : Option (UInt32 × UInt32 × UInt32 × List Byte) := do
  let (lid, s) ← scanHex msg
  let s ← scanChar ':' s
  let (qpn, s) ← scanHex s
  let s ← scanChar ':' s
  let (psn, s) ← scanHex s
  let s ← scanChar ':' s
  let (wgid, _) ← scanWord s
  let gid ← wireGidToGid order wgid
  return (lid, qpn, psn, gid)

theorem Gid.length_word (gid : Gid) {i : Nat} (inside : i < 4) : (gid.word i).length = 4 := by
  have size := gid.size
  simp only [Gid.word, List.length_take, List.length_drop]
  omega

theorem Gid.flatten_words (gid : Gid) : ((List.range 4).map gid.word).flatten = gid.raw := by
  obtain ⟨raw, size⟩ := gid
  change raw.take 4 ++ ((raw.drop 4).take 4 ++ ((raw.drop 8).take 4 ++ ((raw.drop 12).take 4 ++ []))) = raw
  have last : (raw.drop 12).take 4 = raw.drop 12 := List.take_of_length_le (by simp [size])
  rw [last, List.append_nil, show raw.drop 12 = (raw.drop 8).drop 4 by rw [List.drop_drop], List.take_append_drop,
    show raw.drop 8 = (raw.drop 4).drop 4 by rw [List.drop_drop], List.take_append_drop, List.take_append_drop]

/-- Each word is printed as its bytes, whatever the host's order is. -/
def Gid.text (gid : Gid) (i : Nat) : List Char := printHex 8 (fromBigEndian (gid.word i)).toNat

theorem gidToWireGid_eq (order : ByteOrder) (gid : Gid) : gidToWireGid order gid = (List.range 4).flatMap gid.text := by
  apply List.flatMap_congr
  intro i inside
  rw [order.htonl_load (gid.length_word (List.mem_range.mp inside)), Gid.text]

theorem Gid.length_text (gid : Gid) (i : Nat) : (gid.text i).length = 8 :=
  length_printHex (UInt32.toNat_lt _) (by decide)

theorem length_gidToWireGid (order : ByteOrder) (gid : Gid) : (gidToWireGid order gid).length = 32 := by
  rw [gidToWireGid_eq]
  simp [Gid.length_text, List.range_succ]

/-- The i-th of four pieces of eight characters each. -/
theorem piece_flatMap {text : Nat → List Char} (eight : ∀ i, (text i).length = 8) {i : Nat} (inside : i < 4) :
    (((List.range 4).flatMap text).drop (8 * i)).take 8 = text i := by
  have whole : (List.range 4).flatMap text = text 0 ++ (text 1 ++ (text 2 ++ (text 3 ++ []))) := rfl
  have next (k : Nat) (rest : List Char) (n : Nat) : (text k ++ rest).drop (8 + n) = rest.drop n := by
    rw [← List.drop_drop, List.drop_left' (eight k)]
  have first (k : Nat) (rest : List Char) : (text k ++ rest).take 8 = text k := List.take_left' (eight k)
  rw [whole]
  match i with
  | 0 => exact first 0 _
  | 1 => exact (congrArg (List.take 8) (next 0 _ 0)).trans (first 1 _)
  | 2 => exact (congrArg (List.take 8) ((next 0 _ 8).trans (next 1 _ 0))).trans (first 2 _)
  | 3 => exact (congrArg (List.take 8) (((next 0 _ 16).trans (next 1 _ 8)).trans (next 2 _ 0))).trans (first 3 _)

theorem scanHex_last {width : Nat} (x : UInt32) : scanHex (printHex width x.toNat) = some (x, []) := by
  have scanned : ∃ y : UInt32, scanHex (printHex width x.toNat ++ []) = some (y, []) ∧ y.toNat = x.toNat :=
    scanHex_printHex x.toNat_lt nofun
  obtain ⟨y, scanned, value⟩ := scanned
  rw [← List.append_nil (printHex width x.toNat), scanned, UInt32.toNat_inj.mp value]

theorem scanHex_text (gid : Gid) {i : Nat} (inside : i < 4) (order : ByteOrder) :
    (scanHex (gid.text i)).map (fun found => order.store (ntohl order found.1)) = some (gid.word i) := by
  rw [Gid.text, scanHex_last, Option.map_some, order.store_ntohl, bigEndian_fromBigEndian (gid.length_word inside)]

theorem mapM_range_some {f : Nat → Option (List Byte)} {g : Nat → List Byte} (n : Nat) (all : ∀ i < n, f i = some (g i)) :
    (List.range n).mapM f = some ((List.range n).map g) := by
  induction n with
  | zero => rfl
  | succ n ih =>
    rw [List.range_succ, List.mapM_append, ih (fun i below => all i (by omega)), List.map_append]
    simp [all n (by omega)]

/-- The sixteen bytes arrive in their order between hosts of any byte orders. -/
theorem wireGidToGid_gidToWireGid (mine theirs : ByteOrder) (gid : Gid) :
    wireGidToGid theirs (gidToWireGid mine gid) = some gid.raw := by
  have words : (List.range 4).mapM (fun i =>
      (scanHex (((gidToWireGid mine gid).drop (8 * i)).take 8)).map fun found => theirs.store (ntohl theirs found.1)) =
      some ((List.range 4).map gid.word) := by
    apply mapM_range_some
    intro i inside
    rw [gidToWireGid_eq, piece_flatMap gid.length_text inside, scanHex_text gid inside]
  rw [wireGidToGid, words, Option.map_some, gid.flatten_words]

theorem length_message (order : ByteOrder) (dest : PingpongDest) : (message order dest).length + 1 = MSG_SIZE := by
  simp only [message, List.length_append, List.length_cons, length_printHex dest.lidFits (by decide),
    length_printHex dest.qpnFits (by decide), length_printHex dest.psnFits (by decide), length_gidToWireGid, MSG_SIZE]

theorem scanWord_gidToWireGid (order : ByteOrder) (gid : Gid) :
    scanWord (gidToWireGid order gid) = some (gidToWireGid order gid, []) := by
  apply scanWord_of_plain
  · intro none
    have length := length_gidToWireGid order gid
    rw [none] at length
    exact absurd length (by decide)
  · intro c member
    obtain ⟨i, -, digit⟩ := List.mem_flatMap.mp member
    exact (plain_of_isHex (isHex_of_mem_printHex digit)).1

/-- A field of the message, up to the colon after it. -/
theorem scanHex_field {width : Nat} (x : UInt32) (rest : List Char) :
    scanHex (printHex width x.toNat ++ ':' :: rest) = some (x, ':' :: rest) := by
  have scanned : ∃ y : UInt32, scanHex (printHex width x.toNat ++ ':' :: rest) = some (y, ':' :: rest) ∧ y.toNat = x.toNat := by
    apply scanHex_printHex x.toNat_lt
    intro c colon
    obtain rfl : ':' = c := by simpa using colon
    decide
  obtain ⟨y, scanned, value⟩ := scanned
  rw [scanned, UInt32.toNat_inj.mp value]

theorem scanChar_cons (c : Char) (rest : List Char) : scanChar c (c :: rest) = some rest := by
  simp [scanChar]

theorem message_round_trip (mine theirs : ByteOrder) (dest : PingpongDest) :
    (message mine dest).length + 1 = MSG_SIZE ∧
      scanMessage theirs (message mine dest) = some (dest.lid, dest.qpn, dest.psn, dest.gid.raw) := by
  have parts : scanMessage theirs (message mine dest) = some (dest.lid, dest.qpn, dest.psn, dest.gid.raw) := by
    simp only [scanMessage, message, scanHex_field, scanChar_cons, scanWord_gidToWireGid,
      wireGidToGid_gidToWireGid, Option.bind_eq_bind, Option.bind_some, pure]
  exact ⟨length_message mine dest, parts⟩

end RdmaExps.Pingpong
