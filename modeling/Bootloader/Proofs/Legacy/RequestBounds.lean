import Bootloader.Proofs.Legacy.SectorLoop

/-!
# Requests that a BIOS can carry out

A request for sectors may be refused, or go wrong, for what it asks of memory: too many sectors, a
place that the segment does not hold, or one that DMA cannot reach because it goes across a boundary
of 64 KiB.  `Delivery.Fits` says that it is none of these.  By cylinder, head and sector it has to
name sectors of one track as well (`Registers.OnTrack`).

A read that begins at a whole sector below 1 MiB makes only such requests, whatever its sectors are
(`fits_request`, `onTrack_request`).  Each of them asks for one sector or more, so there are no more
requests than sectors, and a read that may make more of them is the same read
(`readWithin_eq_of_le`).  `acceptable_of_init` puts this together.
-/

namespace Bootloader.Legacy

open Bios Program

/-- What a request asks of memory: room for some sectors. -/
structure Delivery where
  count : Nat
  segment : UInt16
  offset : UInt16

/-- The room that a request for sectors asks for, in whichever way it names them. -/
def Registers.delivery? (q : Registers) : Option Delivery :=
  if q.service = 0x42 then q.packet.map fun p => ⟨p.count.toNat, p.segment, p.offset⟩
  else if q.service = 0x02 then some ⟨q.sectors, q.es, q.bx⟩
  else none

/-- The sectors go to an address by one transfer that no BIOS has to refuse. -/
structure Delivery.Fits (d : Delivery) (address : Nat) : Prop where
  count_pos : 1 ≤ d.count
  count_le : d.count ≤ 127
  linear_eq : linear d.segment d.offset = address
  segment_end : d.offset.toNat + 512 * d.count ≤ 0x10000
  one_page : ∀ i < 512 * d.count, (address + i) / 0x10000 = address / 0x10000

/-- The request names the sectors from a place on, none of which is off the drive or past the end of
the track. -/
structure Registers.OnTrack (q : Registers) (g : Geometry) (place : ChsAddress) : Prop where
  cylinder_eq : q.cylinder = place.cylinder.toNat
  head_eq : q.head = place.head.toNat
  sector_eq : q.sector = place.sector.toNat
  cylinder_lt : place.cylinder.toNat < g.cylinders.toNat
  cylinders_le : g.cylinders.toNat ≤ 2 ^ 10
  head_lt : place.head.toNat < g.heads.toNat
  sector_pos : 1 ≤ place.sector.toNat
  sector_le : place.sector.toNat ≤ g.sectorsPerTrack.toNat
  track_end : place.sector.toNat - 1 + q.sectors ≤ g.sectorsPerTrack.toNat

/-- The room that a call to the disk service asks for. -/
def deliveryOf? : Exchange Bios → Option Delivery
  | ⟨.disk q, _⟩ => q.delivery?
  | _ => none

/-- The sectors that have been asked for. -/
def sectorsIn (es : List (Exchange Bios)) : Nat :=
  (es.filterMap deliveryOf?).foldr (fun delivery n => delivery.count + n) 0

/-- A reader asks for the next sectors of a run, to the place where they belong. -/
structure Reader.Asks (r : Reader) (lba : UInt32) (address : Nat) (q : Registers) : Prop where
  drive : q.drive = r.drive
  service : q.service = if r.extended then 0x42 else 0x02
  delivery : ∃ d, q.delivery? = some d ∧ d.Fits address
  onTrack : r.extended = false → q.OnTrack r.geometry (r.geometry.locate lba)

/-- The calls of a read that came to an end: there are no more of them than sectors, and each asks,
in a way that a BIOS can carry out, for what comes after the sectors before it. -/
structure Reader.Acceptable (r : Reader) (t : Transfer) (es : List (Exchange Bios))
    (ok : Bool) : Prop where
  few : es.length ≤ t.count.toNat
  asks : ∀ pre e post, es = pre ++ e :: post → ∃ (q : Registers) (reply : DiskReply),
    e = ⟨.disk q, reply⟩ ∧
      r.Asks (t.lba + UInt32.ofNat (sectorsIn pre)) (t.target.toNat + 512 * sectorsIn pre) q
  whole : ok = true → sectorsIn es = t.count.toNat

namespace Transfer

variable {t : Transfer} {n : UInt32}

/-- A run goes to memory below 1 MiB, from the beginning of a sector's room on. -/
structure Lands (t : Transfer) : Prop where
  aligned : 512 ∣ t.target.toNat
  below : t.target.toNat + 512 * t.count.toNat ≤ 0x100000

theorem Lands.toNat_target_advance (h : t.Lands) (hn : n.toNat ≤ t.count.toNat) :
    (t.advance n).target.toNat = t.target.toNat + 512 * n.toNat :=
  toNat_target_advance_of_le h.below hn

theorem Lands.advance (h : t.Lands) (hn : n.toNat ≤ t.count.toNat) : (t.advance n).Lands := by
  have haligned := h.aligned
  have hbelow := h.below
  have htarget := h.toNat_target_advance hn
  have hcount := Fits.toNat_count_advance hn
  exact ⟨by omega, by omega⟩

/-- At the beginning of a sector's room there is a boundary ahead. -/
theorem Lands.chunk_le_toBoundary (h : t.Lands) : t.chunk.toNat ≤ t.toBoundary.toNat := by
  have haligned := h.aligned
  rw [toNat_chunk, toNat_toBoundary]
  split <;> omega

theorem Lands.toNat_offset (h : t.Lands) : t.offset.toNat = 0 := by
  have haligned := h.aligned
  rw [offset, UInt32.toNat_toUInt16, UInt32.toNat_and,
    show (0xF : UInt32).toNat = 2 ^ 4 - 1 from rfl, Nat.and_two_pow_sub_one_eq_mod]
  omega

end Transfer

namespace Reader

variable {r : Reader} {t : Transfer} {access : Access}

/-- A read may be allowed any number of requests from the number of its sectors on. -/
theorem readWithin_eq_of_le (hu : r.Uses access) :
    ∀ (m n : Nat) (t : Transfer), t.count.toNat ≤ m → t.count.toNat ≤ n →
      r.readWithin m t = r.readWithin n t := by
  intro m
  induction m with
  | zero =>
    intro n t hm hn
    have hzero : t.count = 0 := by
      rw [← UInt32.toNat_inj, UInt32.toNat_zero]
      omega
    cases n with
    | zero => rfl
    | succ n => rw [readWithin, readWithin, if_pos hzero]
  | succ m ih =>
    intro n t hm hn
    by_cases h : t.count = 0
    · cases n with
      | zero => rw [readWithin, readWithin, if_pos h]
      | succ n => rw [readWithin, readWithin, if_pos h, if_pos h]
    · have hpos := piece_pos hu h
      have hpiece : (r.piece t).toNat ≤ t.count.toNat := piece_le
      have hcount := Transfer.Fits.toNat_count_advance hpiece
      obtain ⟨n, rfl⟩ : ∃ n', n = n' + 1 := ⟨n - 1, by omega⟩
      rw [readWithin_eq h, readWithin_eq h, ih n (t.advance (r.piece t)) (by omega) (by omega)]

theorem service_request : (r.request t).service = if r.extended then 0x42 else 0x02 := by
  rcases he : r.extended with _ | _
  · rw [request_of_chs he, service_chsRegisters, if_neg (by simp)]
  · rw [request_of_extended he, if_pos rfl]
    exact (by decide : highByte 0x4200 = 0x42)

theorem delivery?_request :
    (r.request t).delivery? = some ⟨(r.piece t).toNat, t.segment, t.offset⟩ := by
  have hmax := t.chunk_le_max
  have hle : (r.piece t).toNat ≤ t.chunk.toNat := piece_le_chunk
  rw [Registers.delivery?, service_request]
  rcases he : r.extended with _ | _
  · rw [piece_of_chs he] at hle ⊢
    have hbyte : (r.trackChunk t).toUInt8.toNat = (r.trackChunk t).toNat := by
      rw [UInt32.toNat_toUInt8, Nat.mod_eq_of_lt (by omega)]
    simp only [request_of_chs he, sectors_chsRegisters, hbyte, Bool.false_eq_true, if_false]
    rfl
  · rw [piece_of_extended he]
    simp only [request_of_extended he, if_true, Option.map_some, AddressPacket.make,
      UInt32.toNat_toUInt16]
    rw [Nat.mod_eq_of_lt (by omega)]

/-- The next piece fits into memory where it belongs. -/
theorem fits_request (hu : r.Uses access) (ht : t.Lands) (h : t.count ≠ 0) :
    (Delivery.mk (r.piece t).toNat t.segment t.offset).Fits t.target.toNat := by
  have hpos := piece_pos hu h
  have hmax := t.chunk_le_max
  have hle : (r.piece t).toNat ≤ t.chunk.toNat := piece_le_chunk
  have hcount := t.chunk_le
  have hbelow := ht.below
  have hboundary := ht.chunk_le_toBoundary
  rw [Transfer.toNat_toBoundary] at hboundary
  refine ⟨hpos, Nat.le_trans hle hmax, t.linear_target (by omega), ?_, ?_⟩
  · dsimp only
    rw [ht.toNat_offset]
    omega
  · intro i hi
    dsimp only at hi
    omega

/-- The next piece lies in one track of the drive. -/
theorem onTrack_request {shape : Shape} (he : r.extended = false)
    (hg : r.geometry = shape.geometry) (hin : ¬r.Ended t) :
    (r.request t).OnTrack r.geometry (r.geometry.locate t.lba) := by
  have hcylinder : (r.geometry.locate t.lba).cylinder < r.geometry.cylinders := by
    rw [← UInt16.not_le]
    exact fun hle => hin ⟨he, hle⟩
  have hcylinders : r.geometry.cylinders.toNat ≤ 2 ^ 10 := by
    rw [hg, shape.toNat_cylinders]
    exact shape.cylinders_le
  have hcylinder_lt := Nat.lt_of_lt_of_le (UInt16.lt_iff_toNat_lt.1 hcylinder) hcylinders
  obtain ⟨-, hhead, hsector⟩ := shape.toNat_locate t.lba
  rw [Nat.mod_mod_of_dvd _ shape.dvd_reach] at hsector
  have hhead_lt := Nat.mod_lt (t.lba.toNat % shape.reach / shape.sectorsPerTrack) shape.heads_pos
  have hsector_lt := Nat.mod_lt t.lba.toNat shape.sectorsPerTrack_pos
  have hsectors := shape.sectorsPerTrack_le
  have hcount := toNat_trackChunk (t := t) hg
  rw [← hhead] at hhead_lt
  rw [hg] at hcylinder hcylinders hcylinder_lt ⊢
  rw [request_of_chs he, hg]
  refine ⟨cylinder_chsRegisters hcylinder_lt (by omega), head_chsRegisters,
    sector_chsRegisters hcylinder_lt (by omega), UInt16.lt_iff_toNat_lt.1 hcylinder, hcylinders,
    ?_, by omega, ?_, ?_⟩
  · rwa [shape.toNat_heads]
  · rw [shape.toNat_sectorsPerTrack]
    omega
  · rw [shape.toNat_sectorsPerTrack, sectors_chsRegisters, UInt32.toNat_toUInt8, hcount]
    omega

theorem asks_request (hu : r.Uses access) (ht : t.Lands) (h : t.count ≠ 0) (hin : ¬r.Ended t) :
    r.Asks t.lba t.target.toNat (r.request t) where
  drive := drive_request
  service := service_request
  delivery := ⟨_, delivery?_request, fits_request hu ht h⟩
  onTrack he := by
    rcases hu with he' | ⟨shape, -, hg⟩
    · rw [he] at he'
      cases he'
    · exact onTrack_request he hg hin

theorem sectorsIn_request {reply : DiskReply} {es : List (Exchange Bios)} :
    sectorsIn (⟨.disk (r.request t), reply⟩ :: es) = (r.piece t).toNat + sectorsIn es := by
  have hd : deliveryOf? ⟨.disk (r.request t), reply⟩ =
      some ⟨(r.piece t).toNat, t.segment, t.offset⟩ := delivery?_request
  rw [sectorsIn, List.filterMap_cons_some hd, List.foldr_cons]
  rfl

namespace Acceptable

variable {es : List (Exchange Bios)} {reply : DiskReply} {ok : Bool}

theorem nil (h : ok = true → t.count = 0) : r.Acceptable t [] ok where
  few := Nat.zero_le _
  asks := by simp
  whole hok := by
    rw [h hok, UInt32.toNat_zero]
    rfl

/-- The next request comes before those for what is left behind it. -/
theorem cons (hasks : r.Asks t.lba t.target.toNat (r.request t)) (ht : t.Lands)
    (hpos : 0 < (r.piece t).toNat) (h : r.Acceptable (t.advance (r.piece t)) es ok) :
    r.Acceptable t (⟨.disk (r.request t), reply⟩ :: es) ok := by
  have hpiece : (r.piece t).toNat ≤ t.count.toNat := piece_le
  have hcount := Transfer.Fits.toNat_count_advance hpiece
  have htarget := ht.toNat_target_advance hpiece
  refine ⟨?_, ?_, ?_⟩
  · have hfew := h.few
    rw [List.length_cons]
    omega
  · rintro (_ | ⟨e, pre⟩) e' post hes
    · obtain ⟨rfl, -⟩ := List.cons.inj hes
      have hlba : t.lba + UInt32.ofNat (sectorsIn []) = t.lba := UInt32.add_zero _
      rw [hlba]
      exact ⟨_, reply, rfl, hasks⟩
    · rw [List.cons_append, List.cons.injEq] at hes
      obtain ⟨rfl, hes⟩ := hes
      obtain ⟨q, reply', rfl, hq⟩ := h.asks pre e' post hes
      refine ⟨q, reply', rfl, ?_⟩
      rw [sectorsIn_request, UInt32.ofNat_add, UInt32.ofNat_toNat, ← UInt32.add_assoc, Nat.mul_add,
        ← Nat.add_assoc, ← htarget]
      exact hq
  · intro hok
    rw [sectorsIn_request, h.whole hok]
    omega

end Acceptable

/-- By induction on the requests that are allowed: what is left after a piece lands as well. -/
theorem ensures_readWithin_acceptable (hu : r.Uses access) :
    ∀ (requests : Nat) (t : Transfer), t.count.toNat ≤ requests → t.Lands →
      (r.readWithin requests t).Ensures (fun _ => True) (r.Acceptable t) := by
  intro requests
  induction requests with
  | zero =>
    intro t hle _
    refine ensures_done.2 (.nil fun _ => ?_)
    rw [← UInt32.toNat_inj, UInt32.toNat_zero]
    omega
  | succ requests ih =>
    intro t hle ht
    by_cases h : t.count = 0
    · rw [readWithin, if_pos h]
      exact ensures_done.2 (.nil fun _ => h)
    rw [readWithin_eq h]
    split
    · exact ensures_done.2 (.nil (by simp))
    rename_i hin
    have hasks := asks_request hu ht h hin
    have hpos := piece_pos hu h
    have hpiece : (r.piece t).toNat ≤ t.count.toNat := piece_le
    have hcount := Transfer.Fits.toNat_count_advance hpiece
    refine ensures_request.2 fun reply _ => ?_
    split
    · exact ensures_done.2 (.cons hasks ht hpos (.nil (by simp)))
    · exact (ih _ (by omega) (ht.advance hpiece)).mono fun es ok => Acceptable.cons hasks ht hpos

end Reader

/-- A reader that has found out how to read its drive makes only requests that a BIOS can carry out,
one for each sector at most, if it is to read to memory below 1 MiB from the beginning of a sector's
room on. -/
theorem acceptable_of_init {r r' : Reader} {es₀ : List (Exchange Bios)}
    (h : Runs r.init es₀ (some (true, r'))) (lba count target : UInt32)
    (haligned : 512 ∣ target.toNat) (hbelow : target.toNat + 512 * count.toNat ≤ 0x100000) :
    (∀ es o, Runs (r'.read lba count target) es o →
      ∃ ok, o = some ok ∧ r'.Acceptable ⟨lba, count, target⟩ es ok) ∧
        ∀ requests, count.toNat ≤ requests →
          r'.readWithin requests ⟨lba, count, target⟩ = r'.read lba count target := by
  obtain ⟨access, hu⟩ := Reader.exists_uses_of_init h
  refine ⟨fun es o hr => ?_, fun requests hle => ?_⟩
  · have hread := Reader.ensures_readWithin_acceptable hu count.toNat ⟨lba, count, target⟩
      (Nat.le_refl _) ⟨haligned, hbelow⟩
    exact hread es o hr fun _ _ => trivial
  · exact Reader.readWithin_eq_of_le hu requests count.toNat ⟨lba, count, target⟩ hle
      (Nat.le_refl _)

/-- Forty sectors of the floppy disk, from a place in memory with room for eight before the next
boundary, are read by four requests: up to the boundary, to the end of the track, one track, and the
rest. -/
theorem acceptable_floppy : ∃ es, es.length = 4 ∧ sectorsIn es = 40 ∧
    (es.filterMap deliveryOf?).map (·.count) = [8, 5, 18, 9] ∧
      Runs (floppyReader.read 5 40 0x1F000) es (some true) ∧
        floppyReader.Acceptable ⟨5, 40, 0x1F000⟩ es true := by
  obtain ⟨hread, -⟩ := acceptable_of_init runs_init_floppy 5 40 0x1F000 (by decide) (by decide)
  have hr := runs_exchanges floppyBios (floppyReader.read 5 40 0x1F000) ()
  have hok : ((floppyReader.read 5 40 0x1F000).run floppyBios ()).1 = some true := by
    decide +kernel
  rw [hok] at hr
  obtain ⟨ok, hsome, h⟩ := hread _ _ hr
  cases hsome
  exact ⟨_, by decide +kernel, h.whole rfl, by decide +kernel, hr, h⟩

end Bootloader.Legacy
