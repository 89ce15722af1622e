import Bootloader.Proofs.DiskImage

/-!
# When an image is made

What an image asks of its parts and of the layout, in the order in which it is asked (`demands`).
If the sums of the layout do not wrap, an image is made just if all of it is given, and otherwise
the first demand that is not met is reported; an image that is made holds its parts and nothing
else (`assembled`).
-/

namespace Bootloader

namespace DiskImage

/-- Something that is asked for: whether it is given, and what is reported if not. -/
structure Demand where
  met : Bool
  error : ImageError
deriving DecidableEq, Repr

/-- What is reported of the first demand that is not met. -/
def firstUnmet (ds : List Demand) : Option ImageError := (ds.find? fun d => !d.met).map (·.error)

/-- Fails with what is reported of the first demand that is not met. -/
def check (ds : List Demand) : Except ImageError Unit := ((firstUnmet ds).map .error).getD (.ok ())

section Demands

variable (layout : DiskLayout) (bootSector stage2 core : List UInt8)

def layoutDemands : List Demand :=
  [⟨layout.stage2Start ≠ 0, .regionsOverlap⟩,
    ⟨layout.stage2Start.toNat + layout.stage2Sectors.toNat ≤ layout.coreStart.toNat,
      .regionsOverlap⟩]

def bootSectorDemands (image : List UInt8) : List Demand :=
  [⟨image.length = 512, .bootSectorSize image.length⟩,
    ⟨image[510]? = some 0x55 ∧ image[511]? = some 0xAA, .noSignature⟩]

def fitDemands (image : List UInt8) (available : UInt32) (part : String) : List Demand :=
  [⟨0 < image.length, .empty part⟩,
    ⟨image.length ≤ 512 * available.toNat, .tooLarge part (sectorsFor image.length) available⟩]

/-- All that an image asks for. -/
def demands : List Demand :=
  layoutDemands layout ++ bootSectorDemands bootSector ++
    fitDemands stage2 layout.stage2Sectors "stage 2" ++ fitDemands core layout.coreSectors "core"

end Demands

variable {layout : DiskLayout} {bootSector stage2 core : List UInt8} {disk : Buffer}

theorem firstUnmet_append (xs ys : List Demand) :
    firstUnmet (xs ++ ys) = (firstUnmet xs).or (firstUnmet ys) := by
  unfold firstUnmet
  rw [List.find?_append]
  cases xs.find? fun d => !d.met <;> rfl

theorem firstUnmet_eq_none_iff {ds : List Demand} :
    firstUnmet ds = none ↔ ∀ d ∈ ds, d.met = true := by
  simp [firstUnmet]

@[simp] theorem check_nil : check [] = .ok () := rfl

theorem check_cons (d : Demand) (ds : List Demand) :
    check (d :: ds) = if d.met then check ds else .error d.error := by
  unfold check firstUnmet
  cases h : d.met <;> simp [h]

theorem check_append (xs ys : List Demand) : check (xs ++ ys) = check xs >>= fun _ => check ys := by
  unfold check
  rw [firstUnmet_append]
  rcases firstUnmet xs with _ | e <;> rfl

theorem check_eq_ok_iff {ds : List Demand} : check ds = .ok () ↔ firstUnmet ds = none := by
  unfold check
  rcases firstUnmet ds with _ | e <;> simp

theorem check_eq_error_iff {ds : List Demand} {e : ImageError} :
    check ds = .error e ↔ firstUnmet ds = some e := by
  unfold check
  rcases firstUnmet ds with _ | e' <;> simp

theorem checkLayout_eq (he : layout.Exact) : checkLayout layout = check (layoutDemands layout) := by
  have hlt : layout.coreStart < layout.stage2Start + layout.stage2Sectors ↔
      ¬layout.stage2Start.toNat + layout.stage2Sectors.toNat ≤ layout.coreStart.toNat := by
    rw [UInt32.lt_iff_toNat_lt, toNat_stage2End he, Nat.not_le]
  unfold checkLayout layoutDemands
  simp only [check_cons, check_nil, decide_eq_true_eq, hlt]
  by_cases h0 : layout.stage2Start = 0
  · simp [h0]
  · split_ifs <;> simp_all

theorem drop_eq_signature_iff {image : List UInt8} (h : image.length = 512) :
    image.drop 510 = [0x55, 0xAA] ↔ image[510]? = some 0x55 ∧ image[511]? = some 0xAA := by
  have hdrop : image.drop 510 = [image[510], image[511]] := by
    rw [List.drop_eq_getElem_cons (by omega), List.drop_eq_getElem_cons (by omega),
      List.drop_eq_nil_of_le (by omega)]
  rw [hdrop, List.getElem?_eq_getElem (by omega), List.getElem?_eq_getElem (by omega)]
  simp

theorem checkBootSector_eq (image : List UInt8) :
    checkBootSector image = check (bootSectorDemands image) := by
  unfold checkBootSector bootSectorDemands sectorBytes
  simp only [check_cons, check_nil, decide_eq_true_eq, ne_eq]
  by_cases hl : image.length = 512
  · simp only [hl, not_true, if_false, if_true, drop_eq_signature_iff hl, ite_not]
  · rw [if_pos hl, if_neg hl]

theorem checkFits_eq (image : List UInt8) (available : UInt32) (part : String) :
    checkFits image available part = check (fitDemands image available part) := by
  have hs : available.toNat < sectorsFor image.length ↔
      ¬image.length ≤ 512 * available.toNat := by
    unfold sectorsFor sectorBytes
    omega
  unfold checkFits fitDemands
  simp only [check_cons, check_nil, decide_eq_true_eq, hs, ite_not, List.isEmpty_iff]
  by_cases h0 : image = []
  · simp [h0]
  · rw [if_neg h0, if_pos (List.length_pos_iff.2 h0)]

/-- An image is made once its demands have been checked. -/
theorem assemble_eq (he : layout.Exact) :
    assemble bootSector stage2 core layout =
      check (demands layout bootSector stage2 core) >>= fun _ =>
        .ok (place (place (place (Buffer.zeros (imageSize layout)) bootSector 0) stage2
          layout.stage2Start) core layout.coreStart) := by
  simp only [assemble, demands, check_append, checkLayout_eq he, checkBootSector_eq, checkFits_eq,
    bind_assoc]
  rfl

/-- The bytes of a part are at a place of the disk. -/
def HasAt (disk : Buffer) (part : List UInt8) (place : Nat) : Prop :=
  (∀ i < part.length, part[i]? = some (disk.get (place + i))) ∧
    disk.read place part.length = part

/-- The disk holds the three parts of an image where the layout has them, and zeros elsewhere. -/
structure HoldsParts (disk : Buffer) (layout : DiskLayout) (bootSector stage2 core : List UInt8) :
    Prop where
  size_eq : disk.size = 512 * (layout.coreStart.toNat + layout.coreSectors.toNat)
  length_bootSector : bootSector.length = 512
  has_bootSector : HasAt disk bootSector 0
  has_stage2 : HasAt disk stage2 (512 * layout.stage2Start.toNat)
  has_core : HasAt disk core (512 * layout.coreStart.toNat)
  elsewhere : ∀ i, 512 ≤ i →
    ¬(512 * layout.stage2Start.toNat ≤ i ∧ i < 512 * layout.stage2Start.toNat + stage2.length) →
    ¬(512 * layout.coreStart.toNat ≤ i ∧ i < 512 * layout.coreStart.toNat + core.length) →
      disk.get i = 0

theorem hasAt_of_getD {part : List UInt8} {place : Nat}
    (h : ∀ i < part.length, disk.get (place + i) = part.getD i 0) : HasAt disk part place := by
  refine ⟨fun i hi => ?_, Buffer.read_eq h⟩
  rw [h i hi, List.getD_eq_getElem _ _ hi, List.getElem?_eq_getElem hi]

theorem holdsParts_of_assemble (he : layout.Exact)
    (h : assemble bootSector stage2 core layout = .ok disk) :
    HoldsParts disk layout bootSector stage2 core := by
  have hget := get_assemble he h
  obtain ⟨hb, h0, hs, hle, hc⟩ := parts_in_order he h
  unfold sectorBytes at hget hb hs hc
  refine ⟨size_assemble he h, hb, ?_, ?_, ?_, ?_⟩
  · refine hasAt_of_getD fun i hi => ?_
    rw [hget, if_neg (by omega), if_neg (by omega), Nat.zero_add]
  · refine hasAt_of_getD fun i hi => ?_
    rw [hget, if_neg (by omega), if_pos (by omega), Nat.add_sub_cancel_left]
  · refine hasAt_of_getD fun i hi => ?_
    rw [hget, if_pos (by omega), Nat.add_sub_cancel_left]
  · intro i hi hs' hc'
    rw [hget, if_neg hc', if_neg hs', List.getD_eq_default _ _ (by omega)]

/-- An image is made just if all that it asks for is given; otherwise the first demand that is not
met is reported.  What is made holds the parts and nothing else. -/
theorem assembled (he : layout.Exact) :
    ((∃ disk, assemble bootSector stage2 core layout = .ok disk) ↔
        ∀ d ∈ demands layout bootSector stage2 core, d.met = true) ∧
      (∀ e, assemble bootSector stage2 core layout = .error e ↔
        firstUnmet (demands layout bootSector stage2 core) = some e) ∧
      ∀ disk, assemble bootSector stage2 core layout = .ok disk →
        HoldsParts disk layout bootSector stage2 core := by
  rw [← firstUnmet_eq_none_iff, ← check_eq_ok_iff]
  refine ⟨?_, fun e => ?_, fun disk h => holdsParts_of_assemble he h⟩
  · rw [assemble_eq he]
    rcases check (demands layout bootSector stage2 core) with e | ⟨⟩ <;>
      simp [bind, Except.bind]
  · rw [assemble_eq he, ← check_eq_error_iff]
    rcases check (demands layout bootSector stage2 core) with e' | ⟨⟩ <;>
      simp [bind, Except.bind]

/-- A boot sector with nothing but its signature. -/
def emptyBootSector : List UInt8 := List.replicate 510 0 ++ [0x55, 0xAA]

/-- A core of one sector fits into the smallest image, and one byte more does not. -/
theorem assembled_smallest : DiskLayout.Exact ⟨1, 1, 2, 1⟩ ∧
    (∃ disk, assemble emptyBootSector [1] (List.replicate 512 2) ⟨1, 1, 2, 1⟩ = .ok disk ∧
      HoldsParts disk ⟨1, 1, 2, 1⟩ emptyBootSector [1] (List.replicate 512 2)) ∧
    assemble emptyBootSector [1] (List.replicate 513 2) ⟨1, 1, 2, 1⟩ =
      .error (.tooLarge "core" 2 1) := by
  have he : DiskLayout.Exact ⟨1, 1, 2, 1⟩ := by decide
  obtain ⟨hmade, -, hholds⟩ := @assembled _ emptyBootSector [1] (List.replicate 512 2) he
  obtain ⟨-, hrefused, -⟩ := @assembled _ emptyBootSector [1] (List.replicate 513 2) he
  obtain ⟨disk, hdisk⟩ := hmade.2 (by decide +kernel)
  exact ⟨he, ⟨disk, hdisk, hholds disk hdisk⟩, (hrefused _).2 (by decide +kernel)⟩

end DiskImage

end Bootloader
