import Archetype.Artifact.Codec
import Archetype.Proofs.Stateful
import Mathlib.Algebra.Ring.Nat

/-!
Decoders that take back what was encoded and leave the bytes after it, and decoders that do the same
when more bytes follow. A decoder of both sorts refuses its bytes when they are cut short.
-/

namespace Archetype.Artifact

open Stateful

namespace Decoder

variable {α β : Type}

/-- The bytes stand for a value: whatever follows them, the value is taken and the rest is left. No
bytes are longer than a machine word counts. -/
def Reads (decode : Decoder α) (bytes : List UInt8) (a : α) : Prop :=
  bytes.length < UInt64.size → ∀ rest, decode (bytes ++ rest) = .ok (a, rest)

/-- What the one decoder takes, the other takes as well when more bytes follow. -/
def Extends (decode later : Decoder α) : Prop :=
  ∀ ⦃bytes a rest⦄, decode bytes = .ok (a, rest) →
    ∀ more, later (bytes ++ more) = .ok (a, rest ++ more)

namespace Reads

variable {decode : Decoder α} {next : α → Decoder β} {bytes more : List UInt8} {a : α} {b : β}

theorem pure (a : α) : Reads (Pure.pure a) [] a := fun _ _ => rfl

theorem bind (first : decode.Reads bytes a) (second : (next a).Reads more b) :
    Reads (decode >>= next) (bytes ++ more) b := by
  intro short rest
  rw [List.length_append] at short
  rw [List.append_assoc]
  exact bind_eq_ok.2 ⟨a, more ++ rest, first (by omega) _, second (by omega) rest⟩

theorem last (first : decode.Reads bytes a) (value : next a = Pure.pure b) :
    Reads (decode >>= next) bytes b := by
  have read : Reads (decode >>= next) (bytes ++ []) b := first.bind (by rw [value]; exact pure b)
  rwa [List.append_nil] at read

theorem of_short (read : bytes.length < UInt64.size → decode.Reads bytes a) :
    decode.Reads bytes a :=
  fun short => read short short

end Reads

namespace Extends

variable {decode later : Decoder α} {next next' : α → Decoder β}

theorem pure (a : α) : Extends (Pure.pure a) (Pure.pure a) := by
  intro bytes _ _ taken more
  obtain ⟨rfl, rfl⟩ := pure_eq_ok.1 taken
  rfl

theorem throw (fault : Fault) : Extends (MonadExcept.throw fault : Decoder α) later :=
  fun _ _ _ taken => absurd taken throw_ne_ok

theorem bind (first : Extends decode later) (rest : ∀ a, Extends (next a) (next' a)) :
    Extends (decode >>= next) (later >>= next') := by
  intro bytes b left taken more
  obtain ⟨a, between, here, after⟩ := bind_eq_ok.1 taken
  exact bind_eq_ok.2 ⟨a, between ++ more, first here more, rest a after more⟩

end Extends

/-- Bytes that are cut short are refused. -/
theorem exists_fault {decode cut : Decoder α} {bytes missing : List UInt8} {a : α}
    (reads : decode.Reads (bytes ++ missing) a) (extending : cut.Extends decode)
    (short : (bytes ++ missing).length < UInt64.size) (lacking : missing ≠ []) :
    ∃ fault, cut bytes = .error fault := by
  cases taken : cut bytes with
  | error fault => exact ⟨fault, rfl⟩
  | ok pair =>
      obtain ⟨other, left⟩ := pair
      have whole := reads short []
      rw [List.append_nil, extending taken missing, Except.ok.injEq, Prod.mk.injEq] at whole
      exact absurd (List.append_eq_nil_iff.1 whole.2).2 lacking

end Decoder

open Decoder (Reads Extends)

/-! Bytes and numbers. -/

theorem reads_byte (byte : UInt8) : decodeByte.Reads [byte] byte := fun _ _ => rfl

theorem extends_byte : Extends decodeByte decodeByte := by
  intro bytes byte rest taken more
  cases bytes with
  | nil => cases taken
  | cons first bytes =>
      cases taken
      rfl

theorem toNat_toUInt8 {n : Nat} (small : n < 256) : n.toUInt8.toNat = n := by
  simp [Nat.mod_eq_of_lt small]

theorem reads_littleEndian (width : Nat) : ∀ {n : Nat}, n < 256 ^ width →
    (decodeLittleEndian width).Reads (littleEndian width n) n := by
  induction width with
  | zero =>
      intro n small
      obtain rfl : n = 0 := by simpa using small
      exact .pure 0
  | succ width ih =>
      intro n small
      have high : n / 256 < 256 ^ width := Nat.div_lt_of_lt_mul (by rwa [← Nat.pow_succ'])
      have read : (decodeLittleEndian (width + 1)).Reads (littleEndian (width + 1) n)
          ((n % 256).toUInt8.toNat + 256 * (n / 256)) :=
        (reads_byte _).bind ((ih high).last rfl)
      rwa [toNat_toUInt8 (Nat.mod_lt n (by decide)), Nat.mod_add_div] at read

theorem extends_littleEndian (width : Nat) :
    Extends (decodeLittleEndian width) (decodeLittleEndian width) := by
  induction width with
  | zero => exact .pure 0
  | succ width ih => exact extends_byte.bind fun byte => ih.bind fun rest => .pure _

theorem reads_nat {n width : Nat} (room : n < UInt32.size ∨ width = 8 ∧ n < UInt64.size) :
    (decodeNat width).Reads (encodeNat n) n := by
  unfold encodeNat
  split
  · next small =>
      have byte : n.toUInt8.toNat = n := toNat_toUInt8 (by omega)
      have less : n.toUInt8 < 251 := by
        rw [UInt8.lt_iff_toNat_lt, byte]
        exact small
      refine (reads_byte n.toUInt8).last ?_
      rw [if_pos less, byte]
  · split
    · next word => exact (reads_byte 251).bind (reads_littleEndian 2 word)
    · split
      · next word => exact (reads_byte 252).bind (reads_littleEndian 4 word)
      · next large =>
          obtain ⟨rfl, word⟩ := room.resolve_left large
          exact (reads_byte 253).bind (reads_littleEndian 8 word)

theorem extends_nat (width : Nat) : Extends (decodeNat width) (decodeNat width) := by
  refine extends_byte.bind fun byte => ?_
  split
  · exact .pure _
  · split
    · exact extends_littleEndian 2
    · split
      · exact extends_littleEndian 4
      · split
        · exact extends_littleEndian 8
        · exact .throw _

theorem length_encodeNat_pos (n : Nat) : 0 < (encodeNat n).length := by
  unfold encodeNat
  split
  · simp
  · split
    · simp
    · split <;> simp

theorem deinterleave_interleave (i : Int) : deinterleave (interleave i) = i := by
  cases i with
  | ofNat n =>
      rw [interleave, deinterleave, if_pos (by omega)]
      congr 1
      omega
  | negSucc n =>
      rw [interleave, deinterleave, if_neg (by omega)]
      congr 1
      omega

theorem interleave_lt (i : Int64) : interleave i.toInt < UInt64.size := by
  have lower := i.le_toInt
  have upper := i.toInt_lt
  have size : UInt64.size = 2 * 2 ^ 63 := rfl
  cases value : i.toInt with
  | ofNat n =>
      rw [value] at upper
      simp only [interleave]
      have small : (n : Int) < 2 ^ 63 := upper
      omega
  | negSucc n =>
      rw [value] at lower
      simp only [interleave]
      omega

/-! Truth values, texts, options and lists. -/

theorem reads_bool (b : Bool) : decodeBool.Reads (encodeBool b) b := by
  intro _ rest
  cases b <;> rfl

theorem extends_bool : Extends decodeBool decodeBool := by
  refine extends_byte.bind fun byte => ?_
  split
  · exact .pure _
  · split
    · exact .pure _
    · exact .throw _

theorem reads_bytes (bytes : List UInt8) : (decodeBytes bytes.length).Reads bytes bytes := by
  intro _ rest
  rw [decodeBytes, if_pos (by simp), List.take_left, List.drop_left]

theorem extends_bytes (n : Nat) : Extends (decodeBytes n) (decodeBytes n) := by
  intro bytes a rest taken more
  unfold decodeBytes at taken ⊢
  split at taken
  · next enough =>
      cases taken
      rw [if_pos (by rw [List.length_append]; omega), List.take_append_of_le_length enough,
        List.drop_append_of_le_length enough]
  · cases taken

theorem toList_loop (bytes : ByteArray) (i : Nat) (before : List UInt8) :
    ByteArray.toList.loop bytes i before = before.reverse ++ bytes.data.toList.drop i := by
  induction i, before using ByteArray.toList.loop.induct bytes with
  | case1 i before inside ih =>
      have split : bytes.data.toList.drop i =
          bytes.data[i] :: bytes.data.toList.drop (i + 1) := by
        rw [List.drop_eq_getElem_cons (by simpa using inside), Array.getElem_toList]
      have byte : bytes.get! i = bytes.data[i] := getElem!_pos bytes.data i inside
      rw [ByteArray.toList.loop, if_pos inside, ih, split, byte, List.reverse_cons,
        List.append_assoc, List.singleton_append]
  | case2 i before outside =>
      rw [ByteArray.toList.loop, if_neg outside, List.drop_of_length_le (by
        simpa using outside), List.append_nil]

theorem toList_eq_data (bytes : ByteArray) : bytes.toList = bytes.data.toList := by
  rw [ByteArray.toList, toList_loop, List.reverse_nil, List.nil_append, List.drop_zero]

theorem reads_text (s : String) : decodeText.Reads (encodeText s) s := by
  refine .of_short fun short => ?_
  have room : s.toUTF8.toList.length < UInt64.size := by
    rw [encodeText, List.length_append] at short
    omega
  have decoded : String.fromUTF8? ⟨s.toUTF8.toList.toArray⟩ = some s := by
    have valid : (⟨s.toUTF8.data⟩ : ByteArray).IsValidUTF8 := s.isValidUTF8
    rw [toList_eq_data, Array.toArray_toList, String.fromUTF8?, dif_pos valid]
    rfl
  refine (reads_nat (.inr ⟨rfl, room⟩)).bind ((reads_bytes s.toUTF8.toList).last ?_)
  rw [decoded]

theorem extends_text : Extends decodeText decodeText := by
  refine (extends_nat 8).bind fun n => (extends_bytes n).bind fun bytes => ?_
  split
  · exact .pure _
  · exact .throw _

theorem length_encodeText_pos (s : String) : 0 < (encodeText s).length := by
  have number := length_encodeNat_pos s.toUTF8.toList.length
  rw [encodeText, List.length_append]
  omega

section Structures

variable {α : Type} {encode : α → List UInt8} {decode later : Decoder α}

theorem reads_option {o : Option α} (item : ∀ a ∈ o, decode.Reads (encode a) a) :
    (decodeOption decode).Reads (encodeOption encode o) o := by
  cases o with
  | none => exact (reads_bool false).last rfl
  | some a => exact (reads_bool true).bind ((item a rfl).last rfl)

theorem extends_option (item : Extends decode later) :
    Extends (decodeOption decode) (decodeOption later) := by
  refine extends_bool.bind fun b => ?_
  cases b with
  | false => exact .pure _
  | true => exact item.bind fun a => .pure _

theorem reads_many {items : List α} (each : ∀ a ∈ items, decode.Reads (encode a) a) :
    (decodeMany decode items.length).Reads (items.flatMap encode) items := by
  induction items with
  | nil => exact .pure []
  | cons a items ih =>
      obtain ⟨here, later⟩ := List.forall_mem_cons.1 each
      rw [List.flatMap_cons]
      exact here.bind ((ih later).last rfl)

theorem extends_many (item : Extends decode later) (n : Nat) :
    Extends (decodeMany decode n) (decodeMany later n) := by
  induction n with
  | zero => exact .pure _
  | succ n ih => exact item.bind fun a => ih.bind fun rest => .pure _

/-- No item is written as nothing, so the bytes are at least as many as the items. -/
theorem reads_list {items : List α} (written : ∀ a ∈ items, 0 < (encode a).length)
    (each : ∀ a ∈ items, decode.Reads (encode a) a) :
    (decodeList decode).Reads (encodeList encode items) items := by
  refine .of_short fun short => ?_
  have few : items.length ≤ (items.flatMap encode).length := by
    clear short each
    induction items with
    | nil => simp
    | cons a items ih =>
        obtain ⟨here, later⟩ := List.forall_mem_cons.1 written
        have rest := ih later
        rw [List.flatMap_cons, List.length_append, List.length_cons]
        omega
  rw [encodeList, List.length_append] at short
  exact (reads_nat (.inr ⟨rfl, by omega⟩)).bind (reads_many each)

theorem extends_list (item : Extends decode later) :
    Extends (decodeList decode) (decodeList later) :=
  (extends_nat 8).bind (extends_many item)

end Structures

end Archetype.Artifact
