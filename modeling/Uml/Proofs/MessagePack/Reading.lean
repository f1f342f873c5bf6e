import Mathlib
import Uml.MessagePack.Reader

/-!
# Reading what was written

Every value starts with a byte that tells its kind, whatever follows. So the reader takes exactly the
bytes of one value and gives the value back, except that it does not tell with which width an integer
was written.
-/
namespace Uml

theorem Power.bytes_succ (n : Nat) : bytes (n + 1) = bytes n * 256 := Nat.pow_succ ..

theorem Power.bytes_pos (n : Nat) : 0 < bytes n := Nat.pow_pos (by decide)

namespace Msg

@[simp] theorem length_bigEndian (width n : Nat) : (bigEndian width n).length = width := by
  induction width with
  | zero => rfl
  | succ width ih => simp [bigEndian, ih]

theorem foldl_bigEndian (width n digits : Nat) :
    (bigEndian width n).foldl (fun n b => 256 * n + b.toNat) digits
      = digits * Power.bytes width + n % Power.bytes width := by
  induction width generalizing digits with
  | zero =>
    have hone : Power.bytes 0 = 1 := rfl
    simp [bigEndian, hone, Nat.mod_one]
  | succ width ih =>
    have hbyte : (n / Power.bytes width).toUInt8.toNat = n / Power.bytes width % 256 := rfl
    rw [bigEndian, List.foldl_cons, ih, hbyte, Power.bytes_succ, Nat.mod_mul]
    ring

theorem takeNat_bigEndian (width : Nat) {n : Nat} (h : n < Power.bytes width) (s : Bytes) :
    takeNat width (bigEndian width n ++ s) = some (n, s) := by
  have hlen := length_bigEndian width n
  unfold takeNat
  rw [if_neg (by simp), List.take_left' hlen, List.drop_left' hlen, foldl_bigEndian,
    Nat.mod_eq_of_lt h]
  simp

theorem takeInt_wrapped (width : Nat) {n : Int} (hlow : -(Power.bytes width : Int) ≤ 2 * n)
    (hhigh : 2 * n < Power.bytes width) (s : Bytes) :
    takeInt width (wrapped width n ++ s) = some (n, s) := by
  have hpos := Power.bytes_pos width
  have hmod : 0 ≤ n % (Power.bytes width : Int) := Int.emod_nonneg _ (by omega)
  have hlt : n % (Power.bytes width : Int) < Power.bytes width := Int.emod_lt_of_pos _ (by omega)
  unfold takeInt wrapped
  rw [takeNat_bigEndian width (by omega), Option.map_some]
  by_cases hn : 0 ≤ n
  · dsimp only
    rw [Int.emod_eq_of_lt hn (by omega), if_pos (by omega), Int.toNat_of_nonneg hn]
  · have hneg : n % (Power.bytes width : Int) = n + Power.bytes width := by
      rw [← Int.add_emod_right, Int.emod_eq_of_lt (by omega) (by omega)]
    dsimp only
    rw [hneg, if_neg (by omega)]
    congr 2
    omega

/-! ## First bytes -/

theorem takeBytes_append (s rest : Bytes) : takeBytes s.length (s ++ rest) = some (s, rest) := by
  simp [takeBytes]

theorem toNat_toUInt8 {n : Nat} (h : n < 256) : n.toUInt8.toNat = n := by
  show n % 256 = n
  omega

/-- A byte that starts no text, no array and no map. -/
theorem takeSizes_of_outside {head : UInt8} (h : head.toNat < 0x80 ∨ 0xE0 ≤ head.toNat) (s : Bytes) :
    takeStrSize head s = none ∧ takeArraySize head s = none ∧ takeMapSize head s = none := by
  have hne (b : UInt8) (hb : 0x80 ≤ b.toNat ∧ b.toNat < 0xE0) : head ≠ b := by
    rintro rfl
    omega
  refine ⟨?_, ?_, ?_⟩
  · unfold takeStrSize
    rw [if_neg (by simp [UInt8.le_iff_toNat_le]; omega)]
    split
    · exact absurd rfl (hne 0xD9 (by decide))
    · exact absurd rfl (hne 0xDA (by decide))
    · exact absurd rfl (hne 0xDB (by decide))
    · rfl
  · unfold takeArraySize
    rw [if_neg (by simp [UInt8.le_iff_toNat_le]; omega)]
    split
    · exact absurd rfl (hne 0xDC (by decide))
    · exact absurd rfl (hne 0xDD (by decide))
    · rfl
  · unfold takeMapSize
    rw [if_neg (by simp [UInt8.le_iff_toNat_le]; omega)]
    split
    · exact absurd rfl (hne 0xDE (by decide))
    · exact absurd rfl (hne 0xDF (by decide))
    · rfl

theorem takeStrSize_strHead {size : Nat} (h : size < 4294967296) (s : Bytes) :
    ∃ head rest, strHead size ++ s = head :: rest ∧ takeStrSize head rest = some (size, s) := by
  unfold strHead
  split
  · have hhead : ((0xA0 + size).toUInt8).toNat = 0xA0 + size := toNat_toUInt8 (by omega)
    refine ⟨_, _, rfl, ?_⟩
    unfold takeStrSize
    rw [if_pos (by simp [UInt8.le_iff_toNat_le]; omega), hhead, Nat.add_sub_cancel_left]
    rfl
  · split
    · next hsize => exact ⟨_, _, rfl, takeNat_bigEndian 1 hsize s⟩
    · split
      · next hsize => exact ⟨_, _, rfl, takeNat_bigEndian 2 hsize s⟩
      · exact ⟨_, _, rfl, takeNat_bigEndian 4 h s⟩

theorem takeArraySize_arrayHead {size : Nat} (h : size < 4294967296) (s : Bytes) :
    ∃ head rest, arrayHead size ++ s = head :: rest ∧ takeStrSize head rest = none
      ∧ takeArraySize head rest = some (size, s) := by
  unfold arrayHead
  split
  · next hsize =>
    have hhead : ((0x90 + size).toUInt8).toNat = 0x90 + size := toNat_toUInt8 (by omega)
    refine ⟨_, _, rfl, ?_, ?_⟩
    · interval_cases size <;> rfl
    · unfold takeArraySize
      rw [if_pos (by simp [UInt8.le_iff_toNat_le]; omega), hhead, Nat.add_sub_cancel_left]
      rfl
  · split
    · next hsize => exact ⟨_, _, rfl, rfl, takeNat_bigEndian 2 hsize s⟩
    · exact ⟨_, _, rfl, rfl, takeNat_bigEndian 4 h s⟩

theorem takeMapSize_mapHead {size : Nat} (h : size < 4294967296) (s : Bytes) :
    ∃ head rest, mapHead size ++ s = head :: rest ∧ takeStrSize head rest = none
      ∧ takeArraySize head rest = none ∧ takeMapSize head rest = some (size, s) := by
  unfold mapHead
  split
  · next hsize =>
    have hhead : ((0x80 + size).toUInt8).toNat = 0x80 + size := toNat_toUInt8 (by omega)
    refine ⟨_, _, rfl, ?_, ?_, ?_⟩
    · interval_cases size <;> rfl
    · interval_cases size <;> rfl
    · unfold takeMapSize
      rw [if_pos (by simp [UInt8.le_iff_toNat_le]; omega), hhead, Nat.add_sub_cancel_left]
      rfl
  · split
    · next hsize => exact ⟨_, _, rfl, rfl, rfl, takeNat_bigEndian 2 hsize s⟩
    · exact ⟨_, _, rfl, rfl, rfl, takeNat_bigEndian 4 h s⟩

theorem takeStr_encodeStr {s : Bytes} (h : s.length < 4294967296) (rest : Bytes) :
    takeStr (encodeStr s ++ rest) = some (s, rest) := by
  obtain ⟨head, tail, heq, hsize⟩ := takeStrSize_strHead h (s ++ rest)
  rw [encodeStr, List.append_assoc, heq]
  simp only [takeStr, hsize, Option.bind_eq_bind, Option.bind_some]
  exact takeBytes_append s rest

/-! ## Values -/

mutual
/-- The value as a reader gives it back: an integer of no special width. -/
def plain : Msg → Msg
  | uint8 n | uint16 n | uint32 n => int n
  | int64 n => int n
  | array items => array (plainItems items)
  | map entries => map (plainEntries entries)
  | m => m

def plainItems : List Msg → List Msg
  | [] => []
  | m :: ms => plain m :: plainItems ms

def plainEntries : List (Bytes × Msg) → List (Bytes × Msg)
  | [] => []
  | (k, m) :: rest => (k, plain m) :: plainEntries rest
end

mutual
def all (p : Msg → Bool) : Msg → Bool
  | array items => p (array items) && allItems p items
  | map entries => p (map entries) && allEntries p entries
  | m => p m

def allItems (p : Msg → Bool) : List Msg → Bool
  | [] => true
  | m :: ms => all p m && allItems p ms

def allEntries (p : Msg → Bool) : List (Bytes × Msg) → Bool
  | [] => true
  | (_, m) :: rest => all p m && allEntries p rest
end

/-- Whether the size can be told: it is a word of 32 bits at most. -/
def isSized : Msg → Bool
  | str s | bin s => s.length < 4294967296
  | array items => items.length < 4294967296
  | map entries => entries.length < 4294967296 && entries.all (·.1.length < 4294967296)
  | _ => true

/-- Whether an integer has its width, or any width at all. -/
def isExact : Msg → Bool
  | int n => -9223372036854775808 ≤ n && n < 18446744073709551616
  | uint8 n => n < 256
  | uint16 n => n < 65536
  | uint32 n => n < 4294967296
  | int64 n => -9223372036854775808 ≤ n && n ≤ 9223372036854775807
  | _ => true

/-- A value without parts that is no text: its first byte tells what it is, and it is read back. -/
def Scalar (m : Msg) : Prop :=
  ∀ s, ∃ head rest, m.encode ++ s = head :: rest ∧ takeStrSize head rest = none
    ∧ takeArraySize head rest = none ∧ takeMapSize head rest = none
    ∧ takeScalar head rest = some (m.plain, s)

/-- The first byte tells how to read what follows. -/
theorem scalar_of_read {α : Type} {m : Msg} {head : UInt8} {payload : Bytes} {a : α}
    (read : Bytes → Option (α × Bytes)) (make : α → Msg) (hm : m.encode = head :: payload)
    (hread : ∀ s, read (payload ++ s) = some (a, s))
    (hhead : ∀ s, takeStrSize head s = none ∧ takeArraySize head s = none ∧ takeMapSize head s = none
      ∧ takeScalar head s = (read s).map fun r => (make r.1, r.2))
    (hplain : m.plain = make a) : Scalar m := by
  intro s
  obtain ⟨hstr, harray, hmap, hscalar⟩ := hhead (payload ++ s)
  refine ⟨head, payload ++ s, ?_, hstr, harray, hmap, ?_⟩
  · rw [hm, List.cons_append]
  · rw [hscalar, hread, hplain, Option.map_some]

theorem scalar_of_byte {n : Int} (head : UInt8) (hm : encodeInt n = [head])
    (h : head.toNat < 0x80 ∧ n = head.toNat ∨ 0xE0 ≤ head.toNat ∧ n = (head.toNat : Int) - 256) :
    Scalar (int n) := by
  intro s
  obtain ⟨hstr, harray, hmap⟩ := takeSizes_of_outside (h.imp And.left And.left) s
  refine ⟨head, s, ?_, hstr, harray, hmap, ?_⟩
  · show encodeInt n ++ s = _
    rw [hm, List.singleton_append]
  · unfold takeScalar
    obtain ⟨hsmall, rfl⟩ | ⟨hlarge, rfl⟩ := h
    · rw [if_pos (by simp [UInt8.le_iff_toNat_le]; omega)]
      rfl
    · rw [if_neg (by simp [UInt8.le_iff_toNat_le]; omega), if_pos (by simp [UInt8.le_iff_toNat_le]; omega)]
      rfl

theorem bigEndian_one {n : Nat} : bigEndian 1 n = [n.toUInt8] := by
  simp [bigEndian, Power.bytes]

theorem scalar_of_nat {m : Msg} {head : UInt8} {n : Nat} (width : Nat)
    (hm : m.encode = head :: bigEndian width n) (hn : n < Power.bytes width)
    (hhead : ∀ s, takeStrSize head s = none ∧ takeArraySize head s = none ∧ takeMapSize head s = none
      ∧ takeScalar head s = (takeNat width s).map fun r => (int r.1, r.2))
    (hplain : m.plain = int n) : Scalar m :=
  scalar_of_read (takeNat width) (fun n => int n) hm (takeNat_bigEndian width hn) hhead hplain

theorem scalar_of_int {m : Msg} {head : UInt8} {n : Int} (width : Nat)
    (hm : m.encode = head :: wrapped width n) (hlow : -(Power.bytes width : Int) ≤ 2 * n)
    (hhigh : 2 * n < Power.bytes width)
    (hhead : ∀ s, takeStrSize head s = none ∧ takeArraySize head s = none ∧ takeMapSize head s = none
      ∧ takeScalar head s = (takeInt width s).map fun r => (int r.1, r.2))
    (hplain : m.plain = int n) : Scalar m :=
  scalar_of_read (takeInt width) int hm (takeInt_wrapped width hlow hhigh) hhead hplain

theorem scalar_int {n : Int} (h : isExact (int n)) : Scalar (int n) := by
  simp only [isExact, Bool.and_eq_true, decide_eq_true_eq] at h
  obtain ⟨hlow, hhigh⟩ := h
  have h1 : Power.bytes 1 = 256 := rfl
  have h2 : Power.bytes 2 = 65536 := rfl
  have h4 : Power.bytes 4 = 4294967296 := rfl
  have h8 : Power.bytes 8 = 18446744073709551616 := rfl
  by_cases hn : 0 ≤ n
  · have hnat : int n = int n.toNat := by rw [Int.toNat_of_nonneg hn]
    by_cases h7 : n ≤ 127
    · have hbyte : n.toNat.toUInt8.toNat = n.toNat := toNat_toUInt8 (by omega)
      exact scalar_of_byte n.toNat.toUInt8 (by rw [encodeInt, if_pos hn, if_pos h7, bigEndian_one])
        (.inl ⟨by omega, by omega⟩)
    by_cases h8' : n ≤ 255
    · exact scalar_of_nat 1 (by rw [encode, encodeInt, if_pos hn, if_neg h7, if_pos h8']) (by omega)
        (fun s => ⟨rfl, rfl, rfl, rfl⟩) hnat
    by_cases h16 : n ≤ 65535
    · exact scalar_of_nat 2 (by rw [encode, encodeInt, if_pos hn, if_neg h7, if_neg h8', if_pos h16])
        (by omega) (fun s => ⟨rfl, rfl, rfl, rfl⟩) hnat
    by_cases h32 : n ≤ 4294967295
    · exact scalar_of_nat 4
        (by rw [encode, encodeInt, if_pos hn, if_neg h7, if_neg h8', if_neg h16, if_pos h32])
        (by omega) (fun s => ⟨rfl, rfl, rfl, rfl⟩) hnat
    · exact scalar_of_nat 8
        (by rw [encode, encodeInt, if_pos hn, if_neg h7, if_neg h8', if_neg h16, if_neg h32])
        (by omega) (fun s => ⟨rfl, rfl, rfl, rfl⟩) hnat
  · by_cases h5 : -32 ≤ n
    · have hwrapped : (n % (Power.bytes 1 : Int)).toNat = (n + 256).toNat := by
        rw [h1]
        omega
      have hbyte : (n + 256).toNat.toUInt8.toNat = (n + 256).toNat := toNat_toUInt8 (by omega)
      refine scalar_of_byte (n + 256).toNat.toUInt8 ?_ (.inr ⟨by omega, by omega⟩)
      rw [encodeInt, if_neg hn, if_pos h5, wrapped, hwrapped, bigEndian_one]
    by_cases h8' : -128 ≤ n
    · exact scalar_of_int 1 (by rw [encode, encodeInt, if_neg hn, if_neg h5, if_pos h8']) (by omega)
        (by omega) (fun s => ⟨rfl, rfl, rfl, rfl⟩) rfl
    by_cases h16 : -32768 ≤ n
    · exact scalar_of_int 2 (by rw [encode, encodeInt, if_neg hn, if_neg h5, if_neg h8', if_pos h16])
        (by omega) (by omega) (fun s => ⟨rfl, rfl, rfl, rfl⟩) rfl
    by_cases h32 : -2147483648 ≤ n
    · exact scalar_of_int 4
        (by rw [encode, encodeInt, if_neg hn, if_neg h5, if_neg h8', if_neg h16, if_pos h32])
        (by omega) (by omega) (fun s => ⟨rfl, rfl, rfl, rfl⟩) rfl
    · exact scalar_of_int 8
        (by rw [encode, encodeInt, if_neg hn, if_neg h5, if_neg h8', if_neg h16, if_neg h32])
        (by omega) (by omega) (fun s => ⟨rfl, rfl, rfl, rfl⟩) rfl

theorem scalar_bin {b : Bytes} (h : isSized (bin b)) : Scalar (bin b) := by
  simp only [isSized, decide_eq_true_eq] at h
  have hread (width : Nat) (hlen : b.length < Power.bytes width) (s : Bytes) :
      ((takeNat width (bigEndian width b.length ++ b ++ s)).bind fun r => takeBytes r.1 r.2)
        = some (b, s) := by
    rw [List.append_assoc, takeNat_bigEndian width hlen, Option.bind_some, takeBytes_append]
  have hhead (width : Nat) (s : Bytes) :
      ((takeNat width s).bind fun r => (takeBytes r.1 r.2).map fun r => (bin r.1, r.2))
        = ((takeNat width s).bind fun r => takeBytes r.1 r.2).map fun r => (bin r.1, r.2) := by
    rw [Option.map_bind]
    rfl
  have hencode : (bin b).encode = binHead b.length ++ b := rfl
  unfold binHead at hencode
  split at hencode
  · next hsize =>
    exact scalar_of_read _ bin hencode (hread 1 hsize) (fun s => ⟨rfl, rfl, rfl, hhead 1 s⟩) rfl
  · split at hencode
    · next hsize =>
      exact scalar_of_read _ bin hencode (hread 2 hsize) (fun s => ⟨rfl, rfl, rfl, hhead 2 s⟩) rfl
    · exact scalar_of_read _ bin hencode (hread 4 h) (fun s => ⟨rfl, rfl, rfl, hhead 4 s⟩) rfl

theorem scalar_double (d : Double) : Scalar (double d) := by
  refine scalar_of_read (takeNat 8) (fun n => double ⟨n.toUInt64⟩) rfl
    (takeNat_bigEndian 8 d.bits.toNat_lt) (fun s => ⟨rfl, rfl, rfl, rfl⟩) ?_
  show double d = double ⟨d.bits.toNat.toUInt64⟩
  simp

/-- The size is told and integers have their width, so that nothing is cut. -/
def Fits (m : Msg) : Prop := m.all isSized = true ∧ m.all isExact = true

theorem Fits.scalar {m : Msg} (h : m.Fits) (hstr : ∀ s, m ≠ str s) (harray : ∀ l, m ≠ array l)
    (hmap : ∀ l, m ≠ map l) : Scalar m := by
  obtain ⟨hsized, hexact⟩ := h
  cases m with
  | nil => exact fun s => ⟨0xC0, s, rfl, rfl, rfl, rfl, rfl⟩
  | bool b =>
    cases b with
    | false => exact fun s => ⟨0xC2, s, rfl, rfl, rfl, rfl, rfl⟩
    | true => exact fun s => ⟨0xC3, s, rfl, rfl, rfl, rfl, rfl⟩
  | int n => exact scalar_int hexact
  | uint8 n => exact scalar_of_nat 1 rfl (of_decide_eq_true hexact) (fun s => ⟨rfl, rfl, rfl, rfl⟩) rfl
  | uint16 n => exact scalar_of_nat 2 rfl (of_decide_eq_true hexact) (fun s => ⟨rfl, rfl, rfl, rfl⟩) rfl
  | uint32 n => exact scalar_of_nat 4 rfl (of_decide_eq_true hexact) (fun s => ⟨rfl, rfl, rfl, rfl⟩) rfl
  | int64 n =>
    have h8 : Power.bytes 8 = 18446744073709551616 := rfl
    simp only [all, isExact, Bool.and_eq_true, decide_eq_true_eq] at hexact
    exact scalar_of_int 8 rfl (by omega) (by omega) (fun s => ⟨rfl, rfl, rfl, rfl⟩) rfl
  | double d => exact scalar_double d
  | bin b => exact scalar_bin hsized
  | str s => exact absurd rfl (hstr s)
  | array items => exact absurd rfl (harray items)
  | map entries => exact absurd rfl (hmap entries)

theorem length_encodeStr_pos (s : Bytes) : 0 < (encodeStr s).length := by
  have : 0 < (strHead s.length).length := by
    unfold strHead
    split
    · simp
    · split
      · simp
      · split <;> simp
  rw [encodeStr, List.length_append]
  omega

theorem take_of_scalar {m : Msg} (h : Scalar m) (fuel : Nat) (s : Bytes) :
    take (fuel + 1) (m.encode ++ s) = some (m.plain, s) := by
  obtain ⟨head, rest, heq, hstr, harray, hmap, hscalar⟩ := h s
  rw [heq]
  unfold take
  simp only [hstr, harray, hmap, hscalar]

theorem take_str {t : Bytes} (h : t.length < 4294967296) (fuel : Nat) (s : Bytes) :
    take (fuel + 1) (encodeStr t ++ s) = some (str t, s) := by
  obtain ⟨head, rest, heq, hsize⟩ := takeStrSize_strHead h (t ++ s)
  rw [encodeStr, List.append_assoc, heq]
  unfold take
  simp only [hsize, takeBytes_append, Option.map_some]

theorem take_array {items : List Msg} (h : items.length < 4294967296) {fuel : Nat} {s : Bytes}
    (hitems : takeItems fuel items.length (encodeItems items ++ s) = some (plainItems items, s)) :
    take (fuel + 1) ((array items).encode ++ s) = some ((array items).plain, s) := by
  obtain ⟨head, rest, heq, hstr, hsize⟩ := takeArraySize_arrayHead h (encodeItems items ++ s)
  rw [encode, List.append_assoc, heq, plain]
  unfold take
  simp only [hstr, hsize, hitems, Option.map_some]

theorem take_map {entries : List (Bytes × Msg)} (h : entries.length < 4294967296) {fuel : Nat}
    {s : Bytes}
    (hentries : takeEntries fuel entries.length (encodeEntries entries ++ s)
      = some (plainEntries entries, s)) :
    take (fuel + 1) ((map entries).encode ++ s) = some ((map entries).plain, s) := by
  obtain ⟨head, rest, heq, hstr, harray, hsize⟩ := takeMapSize_mapHead h (encodeEntries entries ++ s)
  rw [encode, List.append_assoc, heq, plain]
  unfold take
  simp only [hstr, harray, hsize, hentries, Option.map_some]

theorem length_arrayHead_pos (size : Nat) : 0 < (arrayHead size).length := by
  unfold arrayHead
  split
  · simp
  · split <;> simp

theorem length_mapHead_pos (size : Nat) : 0 < (mapHead size).length := by
  unfold mapHead
  split
  · simp
  · split <;> simp

theorem Scalar.length_pos {m : Msg} (h : Scalar m) : 0 < m.encode.length := by
  obtain ⟨head, rest, heq, -⟩ := h []
  rw [List.append_nil] at heq
  simp [heq]

theorem length_encode_pos {m : Msg} (h : m.Fits) : 0 < m.encode.length := by
  cases m with
  | str s => exact length_encodeStr_pos s
  | array items =>
    have := length_arrayHead_pos items.length
    rw [encode, List.length_append]
    omega
  | map entries =>
    have := length_mapHead_pos entries.length
    rw [encode, List.length_append]
    omega
  | _ => exact (h.scalar nofun nofun nofun).length_pos

-- The fuel that a value takes is less than twice the number of its bytes.
mutual
theorem take_encode (m : Msg) (h : m.Fits) {fuel : Nat} (hfuel : 2 * m.encode.length ≤ fuel + 1)
    (s : Bytes) : take fuel (m.encode ++ s) = some (m.plain, s) := by
  have hpos := length_encode_pos h
  obtain ⟨fuel, rfl⟩ : ∃ n, fuel = n + 1 := ⟨fuel - 1, by omega⟩
  match m with
  | array items =>
    obtain ⟨hsized, hexact⟩ := h
    simp only [all, isSized, isExact, Bool.and_eq_true, decide_eq_true_eq, true_and] at hsized hexact
    have hhead := length_arrayHead_pos items.length
    rw [encode, List.length_append] at hfuel
    exact take_array hsized.1 (takeItems_encode items ⟨hsized.2, hexact⟩ (by omega) s)
  | map entries =>
    obtain ⟨hsized, hexact⟩ := h
    simp only [all, isSized, isExact, Bool.and_eq_true, decide_eq_true_eq, true_and] at hsized hexact
    have hhead := length_mapHead_pos entries.length
    rw [encode, List.length_append] at hfuel
    exact take_map hsized.1.1
      (takeEntries_encode entries ⟨hsized.2, hexact⟩ hsized.1.2 (by omega) s)
  | str t => exact take_str (of_decide_eq_true h.1) fuel s
  | nil | bool _ | int _ | uint8 _ | uint16 _ | uint32 _ | int64 _ | double _ | bin _ =>
    exact take_of_scalar (h.scalar nofun nofun nofun) fuel s

theorem takeItems_encode (items : List Msg)
    (h : allItems isSized items = true ∧ allItems isExact items = true) {fuel : Nat}
    (hfuel : 2 * (encodeItems items).length ≤ fuel) (s : Bytes) :
    takeItems fuel items.length (encodeItems items ++ s) = some (plainItems items, s) := by
  match items with
  | [] => simp [takeItems, encodeItems, plainItems]
  | m :: ms =>
    simp only [allItems, Bool.and_eq_true] at h
    have hm : m.Fits := ⟨h.1.1, h.2.1⟩
    have hpos := length_encode_pos hm
    rw [encodeItems, List.length_append] at hfuel
    obtain ⟨fuel, rfl⟩ : ∃ n, fuel = n + 1 := ⟨fuel - 1, by omega⟩
    have hfirst := @take_encode m hm fuel (by omega) (encodeItems ms ++ s)
    have hrest := @takeItems_encode ms ⟨h.1.2, h.2.2⟩ fuel (by omega) s
    rw [encodeItems, List.append_assoc, List.length_cons, takeItems, hfirst]
    simp only [Option.bind_eq_bind, Option.bind_some, hrest, plainItems]
    rfl

theorem takeEntries_encode (entries : List (Bytes × Msg))
    (h : allEntries isSized entries = true ∧ allEntries isExact entries = true)
    (hkeys : entries.all (·.1.length < 4294967296) = true) {fuel : Nat}
    (hfuel : 2 * (encodeEntries entries).length ≤ fuel) (s : Bytes) :
    takeEntries fuel entries.length (encodeEntries entries ++ s) = some (plainEntries entries, s) := by
  match entries with
  | [] => simp [takeEntries, encodeEntries, plainEntries]
  | (k, m) :: rest =>
    simp only [allEntries, List.all_cons, Bool.and_eq_true, decide_eq_true_eq] at h hkeys
    have hm : m.Fits := ⟨h.1.1, h.2.1⟩
    have hpos := length_encode_pos hm
    rw [encodeEntries, List.length_append, List.length_append] at hfuel
    obtain ⟨fuel, rfl⟩ : ∃ n, fuel = n + 1 := ⟨fuel - 1, by omega⟩
    have hkey := takeStr_encodeStr hkeys.1 (m.encode ++ (encodeEntries rest ++ s))
    have hfirst := @take_encode m hm fuel (by omega) (encodeEntries rest ++ s)
    have hrest := @takeEntries_encode rest ⟨h.1.2, h.2.2⟩ hkeys.2 fuel (by omega) s
    rw [encodeEntries, List.append_assoc, List.append_assoc, List.length_cons, takeEntries, hkey]
    simp only [Option.bind_eq_bind, Option.bind_some, hfirst, hrest, plainEntries]
    rfl
end

/-- Nothing of a value is lost but the widths of its integers. -/
theorem first?_encode {m : Msg} (h : m.Fits) : first? m.encode = some m.plain := by
  have htake := @take_encode m h (2 * m.encode.length + 2) (by omega) []
  rw [List.append_nil] at htake
  rw [first?, htake]
  rfl

end Msg
end Uml
