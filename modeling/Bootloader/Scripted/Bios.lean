import Bootloader.Legacy.Stages
import Bootloader.Scripted.Bytes

/-!
# A scripted BIOS

A BIOS with one disk, whose answers may be overridden call by call, and ports that follow scripts.
No data is moved; a read only succeeds or fails.
-/

namespace Bootloader.Scripted

open Legacy

/-- An answer of the disk service that a script lays down; what it does not name stays as it was
on entry. -/
structure DiskOverride where
  ax : Option UInt16 := none
  bx : Option UInt16 := none
  cx : Option UInt16 := none
  dx : Option UInt16 := none
  carry : Bool := false
deriving Repr

/-- The answer to a call. -/
def DiskOverride.reply (o : DiskOverride) (r : Registers) : DiskReply where
  ax := o.ax.getD r.ax
  bx := o.bx.getD r.bx
  cx := o.cx.getD r.cx
  dx := o.dx.getD r.dx
  carry := o.carry

/-- What a scripted BIOS writes down.  Texts that follow each other are one event, and so are reads
of one port that give the same value. -/
inductive BiosEvent where
  | disk (registers : Registers) (carry : Bool)
  | text (text : String)
  | portRead (port : UInt16) (value : UInt8) (count : Nat)
  | portWrite (port : UInt16) (value : UInt8)
  | delay
  | wrapTest (enabled : Bool)
deriving Repr

/-- The shape of a disk, which may be one that the BIOS cannot put into its registers. -/
structure DiskShape where
  cylinders : UInt64
  heads : UInt64
  sectorsPerTrack : UInt64
deriving Repr

/-- A BIOS, its disk, and what it has written down, the last event first. -/
structure BiosMachine where
  sectors : UInt64 := 0x100000
  extensions : Bool := true
  geometry : DiskShape := ⟨80, 2, 18⟩
  geometryFails : Bool := false
  failingTransfer : Nat := 0
  overrides : List (Option DiskOverride) := []
  fastPort : ByteScript := { segments := [] }
  dataPort : ByteScript := { segments := [] }
  statusPort : ByteScript := { segments := [] }
  wrapTests : ByteScript := { segments := [] }
  codeSegment : UInt16 := 0
  tableOffset : UInt16 := 0x8200
  transfers : Nat := 0
  trace : List BiosEvent := []

namespace BiosMachine

/-- Writes an event down. -/
def push : List BiosEvent → BiosEvent → List BiosEvent
  | .text before :: rest, .text text => .text (before ++ text) :: rest
  | .portRead p v n :: rest, .portRead port value count =>
    if p = port ∧ v = value then .portRead p v (n + count) :: rest
    else .portRead port value count :: .portRead p v n :: rest
  | trace, event => event :: trace

/-- Writes an event down. -/
def note (m : BiosMachine) (event : BiosEvent) : BiosMachine :=
  { m with trace := push m.trace event }

/-- The registers on entry, as an answer. -/
def echo (r : Registers) (carry : Bool) : DiskReply := ⟨r.ax, r.bx, r.cx, r.dx, carry⟩

/-- A transfer of sectors; `true` if it fails.  Sums wrap at 2^64. -/
def transfer (m : BiosMachine) (lba count target : UInt64) : Bool × BiosMachine :=
  let m := { m with transfers := m.transfers + 1 }
  let fits := lba + count ≤ m.sectors ∧ target + 512 * count ≤ 0x100000
  (m.transfers == m.failingTransfer || !fits, m)

/-- The question whether there are extensions. -/
def probe (m : BiosMachine) (r : Registers) : DiskReply :=
  if m.extensions ∧ r.bx = 0x55AA then ⟨0x3000, 0xAA55, 1, r.dx, false⟩
  else ⟨0x0100, r.bx, r.cx, r.dx, true⟩

/-- A read of sectors by number. -/
def extendedRead (m : BiosMachine) (r : Registers) : DiskReply × BiosMachine :=
  match m.extensions, r.packet with
  | true, some packet =>
    let (failed, m) := m.transfer ((packet.lbaHigh.toUInt64 <<< 32) ||| packet.lbaLow.toUInt64)
      packet.count.toUInt64 (packet.segment.toUInt64 * 16 + packet.offset.toUInt64)
    (echo r failed, m)
  | _, _ => (echo r true, m)

/-- A read of sectors by cylinder, head and sector. -/
def chsRead (m : BiosMachine) (r : Registers) : DiskReply × BiosMachine :=
  let cylinder := UInt64.ofNat ((highByte r.cx).toNat + (lowByte r.cx).toNat / 64 * 256)
  let sector := (lowByte r.cx).toNat % 64
  let count := (lowByte r.ax).toNat
  let head := (highByte r.dx).toUInt64
  let perTrack := m.geometry.sectorsPerTrack
  let heads := m.geometry.heads
  if sector = 0 ∨ perTrack.toNat < sector ∨ heads ≤ head ∨
      perTrack.toNat < sector - 1 + count then
    (echo r true, m)
  else
    let (failed, m) := m.transfer
      ((cylinder * heads + head) * perTrack + UInt64.ofNat (sector - 1)) (UInt64.ofNat count)
      (r.es.toUInt64 * 16 + r.bx.toUInt64)
    (echo r failed, m)

/-- The question for the shape of the drive. -/
def shape (m : BiosMachine) (r : Registers) : DiskReply :=
  if m.geometryFails then echo r true
  else
    let last := m.geometry.cylinders - 1
    { ax := r.ax
      bx := r.bx
      cx := word16 last.toUInt8
        (((last >>> 2) &&& 0xC0) ||| m.geometry.sectorsPerTrack).toUInt8
      dx := word16 (m.geometry.heads - 1).toUInt8 1
      carry := false }

/-- The disk service without a script. -/
def plainDisk (m : BiosMachine) (r : Registers) : DiskReply × BiosMachine :=
  match (highByte r.ax).toNat with
  | 0x41 => (m.probe r, m)
  | 0x42 => m.extendedRead r
  | 0x02 => m.chsRead r
  | 0x08 => (m.shape r, m)
  | _ => (echo r true, m)

/-- The disk service. -/
def disk (m : BiosMachine) (r : Registers) : DiskReply × BiosMachine :=
  let entry := m.overrides.headD none
  let m := { m with overrides := m.overrides.tail }
  let (reply, m) : DiskReply × BiosMachine := match entry with
    | some o => (o.reply r, m)
    | none => m.plainDisk r
  (reply, m.note (.disk r reply.carry))

/-- A read of a port. -/
def readPort (m : BiosMachine) (port : UInt16) : UInt8 × BiosMachine :=
  let (value, m) :=
    if port = A20.fastPort then
      let (value, script) := m.fastPort.next
      (value, { m with fastPort := script })
    else if port = A20.dataPort then
      let (value, script) := m.dataPort.next
      (value, { m with dataPort := script })
    else if port = A20.statusPort then
      let (value, script) := m.statusPort.next
      (value, { m with statusPort := script })
    else (0xFF, m)
  (value, m.note (.portRead port value 1))

/-- The wrap-around test. -/
def wrapTest (m : BiosMachine) : Bool × BiosMachine :=
  let (value, script) := m.wrapTests.next
  (value != 0, { m with wrapTests := script }.note (.wrapTest (value != 0)))

/-- What the machine answers to each call. -/
def answer : (q : Bios.Call) → BiosMachine → q.Reply × BiosMachine
  | .disk r, m => m.disk r
  | .teletype c, m => ((), m.note (.text (String.singleton c)))
  | .readPort port, m => m.readPort port
  | .writePort port value, m => ((), m.note (.portWrite port value))
  | .delay, m => ((), m.note .delay)
  | .wrapTest, m => m.wrapTest
  | .codeSegment, m => (m.codeSegment, m)
  | .tableOffset, m => (m.tableOffset, m)

/-- Runs a stage, or a part of one, on the machine. -/
def run {α : Type} (m : BiosMachine) (program : Program Bios α) : Option α × BiosMachine :=
  program.run answer m

end BiosMachine

end Bootloader.Scripted
