import Bootloader.Legacy.Descriptor
import Bootloader.Proofs.Bytes
import Mathlib.Algebra.BigOperators.Group.List.Basic
import Mathlib.Data.Nat.Bitwise
import Mathlib.Tactic.Ring

/-!
# What the processor reads from a descriptor

A descriptor is a row of bit fields, the lowest first (`Descriptor.fields`).  Both of its layouts
are this row: each `or` of the word puts one more field above those that are there (`packs_word`),
and the bytes in memory are those of the same number (`bytes_eq`).  What is read from the bits of
some fields is then what these fields hold (`bitsAt_word`).

The fields of a segment are pieces of its base, its limit and its type; put together again they are
what they were cut from (`segmentOf_segment`).
-/

namespace Bootloader.Legacy

/-- The number whose bits are these fields, each with its width, the lowest first. -/
def packed : List (Nat × Nat) → Nat
  | [] => 0
  | (width, value) :: rest => value + 2 ^ width * packed rest

/-- The bits that fields take together. -/
def totalWidth (fields : List (Nat × Nat)) : Nat := (fields.map (·.1)).sum

/-- Each field holds a number that it has the bits for. -/
def Fit (fields : List (Nat × Nat)) : Prop := ∀ f ∈ fields, f.2 < 2 ^ f.1

/-- The number is these fields, which take that many bits. -/
structure Packs (n width : Nat) (fields : List (Nat × Nat)) : Prop where
  eq : n = packed fields
  width_eq : totalWidth fields = width
  fit : Fit fields

/-- Some bits of a word, as a number. -/
def bitsAt (word : UInt64) (low width : Nat) : Nat := word.toNat / 2 ^ low % 2 ^ width

/-- A segment, as the processor knows it. -/
structure Segment where
  base : Nat
  limit : Nat
  kind : Nat
  isCodeOrData : Bool
  privilege : Nat
  present : Bool
  available : Bool
  long : Bool
  wide : Bool
  pageGranular : Bool
deriving DecidableEq

/-- What the processor reads from the word of a descriptor. -/
def Segment.ofWord (word : UInt64) : Segment where
  base := bitsAt word 16 24 + 2 ^ 24 * bitsAt word 56 8
  limit := bitsAt word 0 16 + 2 ^ 16 * bitsAt word 48 4
  kind := bitsAt word 40 4
  isCodeOrData := bitsAt word 44 1 == 1
  privilege := bitsAt word 45 2
  present := bitsAt word 47 1 == 1
  available := bitsAt word 52 1 == 1
  long := bitsAt word 53 1 == 1
  wide := bitsAt word 54 1 == 1
  pageGranular := bitsAt word 55 1 == 1

section Packed

variable {fs gs : List (Nat × Nat)} {n m k width value : Nat}

theorem totalWidth_cons (f : Nat × Nat) (rest : List (Nat × Nat)) :
    totalWidth (f :: rest) = f.1 + totalWidth rest := by
  simp [totalWidth]

theorem packed_append (fs gs : List (Nat × Nat)) :
    packed (fs ++ gs) = packed fs + 2 ^ totalWidth fs * packed gs := by
  induction fs with
  | nil => simp [packed, totalWidth]
  | cons f rest ih =>
    rw [List.cons_append, packed, packed, ih, totalWidth_cons, pow_add]
    ring

theorem packed_lt (h : Fit fs) : packed fs < 2 ^ totalWidth fs := by
  induction fs with
  | nil => simp [packed, totalWidth]
  | cons f rest ih =>
    have hf : f.2 < 2 ^ f.1 := h f List.mem_cons_self
    have hrest := ih fun g hg => h g (List.mem_cons_of_mem f hg)
    rw [packed, totalWidth_cons, pow_add]
    calc f.2 + 2 ^ f.1 * packed rest < 2 ^ f.1 * (packed rest + 1) := by rw [mul_add]; omega
      _ ≤ 2 ^ f.1 * 2 ^ totalWidth rest := Nat.mul_le_mul_left _ hrest

/-- The bits of some fields in the middle are the number of these fields. -/
theorem packed_bits (hf : Fit fs) (hg : Fit gs) (rest : List (Nat × Nat)) :
    packed (fs ++ (gs ++ rest)) / 2 ^ totalWidth fs % 2 ^ totalWidth gs = packed gs := by
  rw [packed_append, packed_append, Nat.add_mul_div_left _ _ (Nat.two_pow_pos _),
    Nat.div_eq_of_lt (packed_lt hf), Nat.zero_add, Nat.add_mul_mod_self_left,
    Nat.mod_eq_of_lt (packed_lt hg)]

theorem Packs.single (h : value < 2 ^ width) : Packs value width [(width, value)] :=
  ⟨by simp [packed], by simp [totalWidth], by simpa [Fit] using h⟩

/-- One more field, above those that are there. -/
theorem Packs.above (h : Packs n k fs) (hm : m = value <<< k) (hv : value < 2 ^ width) :
    Packs (n ||| m) (k + width) (fs ++ [(width, value)]) where
  eq := by
    have hlt : n < 2 ^ k := h.width_eq ▸ h.eq ▸ packed_lt h.fit
    rw [hm, Nat.or_comm, ← Nat.shiftLeft_add_eq_or_of_lt hlt, packed_append, h.width_eq, h.eq,
      Nat.shiftLeft_eq]
    simp only [packed]
    ring
  width_eq := by
    rw [← h.width_eq]
    simp [totalWidth]
  fit f hmem := by
    rcases List.mem_append.1 hmem with hmem | hmem
    · exact h.fit f hmem
    · obtain rfl := List.mem_singleton.1 hmem
      exact hv

theorem Packs.bit (h : Packs n k fs) {b : Bool} (hm : m = b.toNat <<< k) :
    Packs (n ||| m) (k + 1) (fs ++ [(1, b.toNat)]) :=
  h.above hm b.toNat_lt

theorem toNat_shiftLeft_of_lt {v : UInt64} (hv : v.toNat < 2 ^ width)
    (hk : 0 < width ∧ k + width ≤ 64) : (v <<< UInt64.ofNat k).toNat = v.toNat <<< k := by
  have hlt : v.toNat <<< k < 2 ^ 64 := by
    rw [Nat.shiftLeft_eq]
    calc v.toNat * 2 ^ k < 2 ^ width * 2 ^ k := Nat.mul_lt_mul_of_pos_right hv (Nat.two_pow_pos _)
      _ = 2 ^ (k + width) := by rw [Nat.mul_comm, pow_add]
      _ ≤ 2 ^ 64 := Nat.pow_le_pow_right (by decide) hk.2
  have hcount : (UInt64.ofNat k).toNat % 64 = k := by
    rw [UInt64.toNat_ofNat']
    omega
  rw [UInt64.toNat_shiftLeft, hcount, Nat.mod_eq_of_lt hlt]

/-- One more field of a word. -/
theorem Packs.shifted {w v : UInt64} (h : Packs w.toNat k fs) (heq : v.toNat = value)
    (hv : value < 2 ^ width) (hk : 0 < width ∧ k + width ≤ 64) :
    Packs (w ||| v <<< UInt64.ofNat k).toNat (k + width) (fs ++ [(width, value)]) := by
  rw [UInt64.toNat_or]
  subst heq
  exact h.above (toNat_shiftLeft_of_lt hv hk) hv

theorem Packs.flag {w : UInt64} (h : Packs w.toNat k fs) (b : Bool) (hk : k + 1 ≤ 64) :
    Packs (w ||| b.toUInt64 <<< UInt64.ofNat k).toNat (k + 1) (fs ++ [(1, b.toNat)]) := by
  refine h.shifted ?_ b.toNat_lt ⟨Nat.one_pos, hk⟩
  cases b <;> rfl

end Packed

namespace Descriptor

/-- The fields of a descriptor with their widths, the lowest first. -/
def fields (d : Descriptor) : List (Nat × Nat) :=
  [(16, d.limitLow.toNat), (16, d.baseLow.toNat), (8, d.baseMiddle.toNat), (4, d.kind.toNat),
    (1, d.isCodeOrData.toNat), (2, d.privilege.toNat), (1, d.present.toNat),
    (4, d.limitHigh.toNat), (1, d.available.toNat), (1, d.long.toNat), (1, d.wide.toNat),
    (1, d.pageGranular.toNat), (8, d.baseHigh.toNat)]

/-- The segment that a descriptor stands for. -/
def segmentOf (d : Descriptor) : Segment where
  base := d.baseLow.toNat + 2 ^ 16 * d.baseMiddle.toNat + 2 ^ 24 * d.baseHigh.toNat
  limit := d.limitLow.toNat + 2 ^ 16 * d.limitHigh.toNat
  kind := d.kind.toNat
  isCodeOrData := d.isCodeOrData
  privilege := d.privilege.toNat
  present := d.present
  available := d.available
  long := d.long
  wide := d.wide
  pageGranular := d.pageGranular

/-- The fields of less than a byte hold what they have the bits for. -/
structure Proper (d : Descriptor) : Prop where
  kind_lt : d.kind.toNat < 2 ^ 4
  privilege_lt : d.privilege.toNat < 2 ^ 2
  limitHigh_lt : d.limitHigh.toNat < 2 ^ 4

section Layout

variable {d : Descriptor}

/-- The low bits of a byte are all of it, if there are no others. -/
theorem toNat_and_of_lt {x mask : UInt8} {width : Nat} (h : x.toNat < 2 ^ width)
    (hmask : mask.toNat = 2 ^ width - 1) : (x &&& mask).toNat = x.toNat := by
  rw [UInt8.toNat_and, hmask, Nat.and_two_pow_sub_one_eq_mod, Nat.mod_eq_of_lt h]

theorem packs_word (h : d.Proper) : Packs d.word.toNat 64 d.fields := by
  have hlow : Packs d.limitLow.toUInt64.toNat 16 [(16, d.limitLow.toNat)] :=
    .single d.limitLow.toNat_lt
  have hbase := hlow
    |>.shifted d.baseLow.toNat_toUInt64 d.baseLow.toNat_lt (by decide)
    |>.shifted d.baseMiddle.toNat_toUInt64 d.baseMiddle.toNat_lt (by decide)
  have haccess := hbase
    |>.shifted d.kind.toNat_toUInt64 h.kind_lt (by decide)
    |>.flag d.isCodeOrData (by decide)
    |>.shifted d.privilege.toNat_toUInt64 h.privilege_lt (by decide)
    |>.flag d.present (by decide)
  have hflags := haccess
    |>.shifted d.limitHigh.toNat_toUInt64 h.limitHigh_lt (by decide)
    |>.flag d.available (by decide)
    |>.flag d.long (by decide)
    |>.flag d.wide (by decide)
    |>.flag d.pageGranular (by decide)
  exact hflags.shifted d.baseHigh.toNat_toUInt64 d.baseHigh.toNat_lt (by decide)

/-- What is read from the bits of `j` fields after the first `i` is the number of these fields. -/
theorem bitsAt_word (h : d.Proper) (i j : Nat) :
    bitsAt d.word (totalWidth (d.fields.take i)) (totalWidth ((d.fields.drop i).take j)) =
      packed ((d.fields.drop i).take j) := by
  obtain ⟨heq, -, hfit⟩ := packs_word h
  have hsplit : d.fields = d.fields.take i ++ ((d.fields.drop i).take j ++
      (d.fields.drop i).drop j) := by
    rw [List.take_append_drop, List.take_append_drop]
  have hbefore : Fit (d.fields.take i) := fun f hf => hfit f (List.mem_of_mem_take hf)
  have hthese : Fit ((d.fields.drop i).take j) := fun f hf =>
    hfit f (List.mem_of_mem_drop (List.mem_of_mem_take hf))
  have hbits := packed_bits hbefore hthese ((d.fields.drop i).drop j)
  rwa [← hsplit, ← heq] at hbits

theorem flag_eq {word : UInt64} {low : Nat} {b : Bool}
    (h : bitsAt word low 1 = packed [(1, b.toNat)]) : (bitsAt word low 1 == 1) = b := by
  rw [h]
  cases b <;> rfl

theorem ofWord_word (h : d.Proper) : Segment.ofWord d.word = d.segmentOf := by
  have hbase : bitsAt d.word 16 24 = packed [(16, d.baseLow.toNat), (8, d.baseMiddle.toNat)] := by
    simpa [fields, totalWidth] using bitsAt_word h 1 2
  have hbaseHigh : bitsAt d.word 56 8 = packed [(8, d.baseHigh.toNat)] := by
    simpa [fields, totalWidth] using bitsAt_word h 12 1
  have hlimit : bitsAt d.word 0 16 = packed [(16, d.limitLow.toNat)] := by
    simpa [fields, totalWidth] using bitsAt_word h 0 1
  have hlimitHigh : bitsAt d.word 48 4 = packed [(4, d.limitHigh.toNat)] := by
    simpa [fields, totalWidth] using bitsAt_word h 7 1
  have hkind : bitsAt d.word 40 4 = packed [(4, d.kind.toNat)] := by
    simpa [fields, totalWidth] using bitsAt_word h 3 1
  have hprivilege : bitsAt d.word 45 2 = packed [(2, d.privilege.toNat)] := by
    simpa [fields, totalWidth] using bitsAt_word h 5 1
  have hcode : (bitsAt d.word 44 1 == 1) = d.isCodeOrData :=
    flag_eq (by simpa [fields, totalWidth] using bitsAt_word h 4 1)
  have hpresent : (bitsAt d.word 47 1 == 1) = d.present :=
    flag_eq (by simpa [fields, totalWidth] using bitsAt_word h 6 1)
  have havailable : (bitsAt d.word 52 1 == 1) = d.available :=
    flag_eq (by simpa [fields, totalWidth] using bitsAt_word h 8 1)
  have hlong : (bitsAt d.word 53 1 == 1) = d.long :=
    flag_eq (by simpa [fields, totalWidth] using bitsAt_word h 9 1)
  have hwide : (bitsAt d.word 54 1 == 1) = d.wide :=
    flag_eq (by simpa [fields, totalWidth] using bitsAt_word h 10 1)
  have hgranular : (bitsAt d.word 55 1 == 1) = d.pageGranular :=
    flag_eq (by simpa [fields, totalWidth] using bitsAt_word h 11 1)
  rw [Segment.ofWord, segmentOf, hbase, hbaseHigh, hlimit, hlimitHigh, hkind, hprivilege, hcode,
    hpresent, havailable, hlong, hwide, hgranular]
  simp only [packed, Nat.mul_zero, Nat.add_zero]

theorem packs_accessByte (h : d.Proper) : Packs d.accessByte.toNat 8
    [(4, d.kind.toNat), (1, d.isCodeOrData.toNat), (2, d.privilege.toNat),
      (1, d.present.toNat)] := by
  have hkind : (d.kind &&& 0x0F).toNat = d.kind.toNat := toNat_and_of_lt h.kind_lt (by decide)
  have hcode : (if d.isCodeOrData then 0x10 else 0 : UInt8).toNat = d.isCodeOrData.toNat <<< 4 := by
    cases d.isCodeOrData <;> rfl
  have hprivilege : ((d.privilege &&& (0x03 : UInt8)) <<< (5 : UInt8)).toNat =
      d.privilege.toNat <<< 5 := by
    have hand : (d.privilege &&& (0x03 : UInt8)).toNat = d.privilege.toNat :=
      toNat_and_of_lt h.privilege_lt (by decide)
    have hlt : d.privilege.toNat * 2 ^ 5 < 2 ^ 8 := by
      have := h.privilege_lt
      omega
    rw [UInt8.toNat_shiftLeft, hand, Nat.shiftLeft_eq, Nat.shiftLeft_eq]
    exact Nat.mod_eq_of_lt hlt
  have hpresent : (if d.present then 0x80 else 0 : UInt8).toNat = d.present.toNat <<< 7 := by
    cases d.present <;> rfl
  simp only [accessByte, UInt8.toNat_or, hkind]
  exact Packs.single h.kind_lt |>.bit hcode |>.above hprivilege h.privilege_lt |>.bit hpresent

theorem packs_flagByte (h : d.Proper) : Packs d.flagByte.toNat 8
    [(4, d.limitHigh.toNat), (1, d.available.toNat), (1, d.long.toNat), (1, d.wide.toNat),
      (1, d.pageGranular.toNat)] := by
  have hlimit : (d.limitHigh &&& 0x0F).toNat = d.limitHigh.toNat :=
    toNat_and_of_lt h.limitHigh_lt (by decide)
  have havailable : (if d.available then 0x10 else 0 : UInt8).toNat = d.available.toNat <<< 4 := by
    cases d.available <;> rfl
  have hlong : (if d.long then 0x20 else 0 : UInt8).toNat = d.long.toNat <<< 5 := by
    cases d.long <;> rfl
  have hwide : (if d.wide then 0x40 else 0 : UInt8).toNat = d.wide.toNat <<< 6 := by
    cases d.wide <;> rfl
  have hgranular : (if d.pageGranular then 0x80 else 0 : UInt8).toNat =
      d.pageGranular.toNat <<< 7 := by
    cases d.pageGranular <;> rfl
  simp only [flagByte, UInt8.toNat_or, hlimit]
  exact Packs.single h.limitHigh_lt
    |>.bit havailable |>.bit hlong |>.bit hwide |>.bit hgranular

/-- The bytes in memory and the word are the same fields. -/
theorem bytes_eq (h : d.Proper) : d.bytes = bytes64 d.word := by
  have hread16 (n : UInt16) : ofLittleEndian (bytes16 n) = n.toNat :=
    (ofLittleEndian_littleEndian 2 n.toNat).trans (Nat.mod_eq_of_lt n.toNat_lt)
  have hread : ofLittleEndian d.bytes = d.word.toNat := by
    rw [(packs_word h).eq, bytes, ofLittleEndian_append, ofLittleEndian_append, hread16, hread16]
    simp only [ofLittleEndian, List.length_append, length_bytes16, fields, packed,
      (packs_accessByte h).eq, (packs_flagByte h).eq]
    ring
  have hlength : d.bytes.length = 8 := by simp [bytes]
  calc d.bytes = littleEndian d.bytes.length (ofLittleEndian d.bytes) :=
        (littleEndian_ofLittleEndian d.bytes).symm
    _ = bytes64 d.word := by rw [hlength, hread, bytes64]

end Layout

section Segment

/-- A piece cut out of a word and moved down to its lowest bits. -/
theorem toNat_piece {n mask low : UInt32} {k width : Nat} (hlow : low.toNat % 32 = k)
    (hmask : mask.toNat = (2 ^ width - 1) <<< k) :
    ((n &&& mask) >>> low).toNat = n.toNat / 2 ^ k % 2 ^ width := by
  rw [UInt32.toNat_shiftRight, hlow, UInt32.toNat_and, hmask, Nat.shiftRight_and_distrib,
    Nat.shiftLeft_shiftRight, Nat.and_two_pow_sub_one_eq_mod, Nat.shiftRight_eq_div_pow]

theorem toNat_lowHalf (n : UInt32) : (n &&& 0xFFFF).toUInt16.toNat = n.toNat % 2 ^ 16 := by
  rw [UInt32.toNat_toUInt16, UInt32.toNat_and]
  change (n.toNat &&& (2 ^ 16 - 1)) % 2 ^ 16 = _
  rw [Nat.and_two_pow_sub_one_eq_mod, Nat.mod_mod]

theorem toNat_kind (type : UInt16) : (type &&& 0x0F).toUInt8.toNat = type.toNat % 2 ^ 4 := by
  rw [UInt16.toNat_toUInt8, UInt16.toNat_and]
  change (type.toNat &&& (2 ^ 4 - 1)) % 2 ^ 8 = _
  rw [Nat.and_two_pow_sub_one_eq_mod]
  omega

theorem isCodeOrData_eq (type : UInt16) : (type &&& 0x10 != 0) = type.toNat.testBit 4 := by
  have hand : (type &&& 0x10).toNat = (type.toNat.testBit 4).toNat * 2 ^ 4 :=
    (UInt16.toNat_and type 0x10).trans (Nat.and_two_pow type.toNat 4)
  have hzero : type &&& 0x10 = 0 ↔ type.toNat.testBit 4 = false := by
    rw [← UInt16.toNat_inj, hand]
    cases type.toNat.testBit 4 <;> decide
  cases hbit : type.toNat.testBit 4 with
  | false => simp [hzero.2 hbit]
  | true => simpa [hbit] using hzero

variable (base limit : UInt32) (type : UInt16) (pageGranular wide : Bool)

theorem toNat_baseMiddle : (segment base limit pageGranular type wide).baseMiddle.toNat =
    base.toNat / 2 ^ 16 % 2 ^ 8 := by
  have hpiece : ((base &&& 0xFF0000) >>> 16).toNat = base.toNat / 2 ^ 16 % 2 ^ 8 :=
    toNat_piece rfl rfl
  rw [segment, UInt32.toNat_toUInt8, hpiece, Nat.mod_mod]

theorem toNat_baseHigh : (segment base limit pageGranular type wide).baseHigh.toNat =
    base.toNat / 2 ^ 24 % 2 ^ 8 := by
  have hpiece : ((base &&& 0xFF000000) >>> 24).toNat = base.toNat / 2 ^ 24 % 2 ^ 8 :=
    toNat_piece rfl rfl
  rw [segment, UInt32.toNat_toUInt8, hpiece, Nat.mod_mod]

theorem toNat_limitHigh : (segment base limit pageGranular type wide).limitHigh.toNat =
    limit.toNat / 2 ^ 16 % 2 ^ 4 := by
  have hpiece : ((limit &&& 0x0F0000) >>> 16).toNat = limit.toNat / 2 ^ 16 % 2 ^ 4 :=
    toNat_piece rfl rfl
  rw [segment, UInt32.toNat_toUInt8, hpiece]
  omega

theorem proper_segment : (segment base limit pageGranular type wide).Proper where
  kind_lt := (toNat_kind type).trans_lt (Nat.mod_lt _ (by decide))
  privilege_lt := show (0 : UInt8).toNat < 2 ^ 2 by decide
  limitHigh_lt :=
    (toNat_limitHigh base limit type pageGranular wide).trans_lt (Nat.mod_lt _ (by decide))

/-- The pieces of the base, the limit and the type are what they were cut from. -/
theorem segmentOf_segment : (segment base limit pageGranular type wide).segmentOf =
    { base := base.toNat, limit := limit.toNat % 2 ^ 20, kind := type.toNat % 2 ^ 4,
      isCodeOrData := type.toNat.testBit 4, privilege := 0, present := true, available := false,
      long := false, wide, pageGranular } := by
  have hbase : base.toNat % 2 ^ 16 + 2 ^ 16 * (base.toNat / 2 ^ 16 % 2 ^ 8) +
      2 ^ 24 * (base.toNat / 2 ^ 24 % 2 ^ 8) = base.toNat := by
    have := base.toNat_lt
    omega
  have hlimit : limit.toNat % 2 ^ 16 + 2 ^ 16 * (limit.toNat / 2 ^ 16 % 2 ^ 4) =
      limit.toNat % 2 ^ 20 := by
    omega
  rw [segmentOf, toNat_baseMiddle, toNat_baseHigh, toNat_limitHigh]
  simp only [segment, toNat_lowHalf, toNat_kind, isCodeOrData_eq, hbase, hlimit]
  rfl

/-- From the word the processor reads the segment that was asked for, and the descriptor lies in
memory as the word does. -/
theorem reads_segment :
    Segment.ofWord (segment base limit pageGranular type wide).word =
        { base := base.toNat, limit := limit.toNat % 2 ^ 20, kind := type.toNat % 2 ^ 4,
          isCodeOrData := type.toNat.testBit 4, privilege := 0, present := true,
          available := false, long := false, wide, pageGranular } ∧
      (segment base limit pageGranular type wide).bytes =
        bytes64 (segment base limit pageGranular type wide).word := by
  have hproper := proper_segment base limit type pageGranular wide
  exact ⟨(ofWord_word hproper).trans (segmentOf_segment base limit type pageGranular wide),
    bytes_eq hproper⟩

/-- The code segment that the loader switches to is all of memory. -/
example : Segment.ofWord flatCode.word =
    { base := 0, limit := 0xFFFFF, kind := 10, isCodeOrData := true, privilege := 0,
      present := true, available := false, long := false, wide := true, pageGranular := true } := by
  decide

end Segment

end Descriptor

end Bootloader.Legacy
