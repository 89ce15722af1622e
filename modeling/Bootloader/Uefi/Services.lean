import Bootloader.Numeral
import Bootloader.Uefi.Firmware

/-!
# The hold on the boot services

`Services` is the loader's hold on the firmware.  Once it has been given up it stays given up, and
whoever tries to reach a service or the console through it gets a line on the serial port and a
halt instead: `call_eq_of_live` and `call_eq_of_not_live` are the two cases.
-/

namespace Bootloader.Uefi

/-- The hold on the boot services: the handle of the loader's own image, the tables of the
firmware, and whether the services may still be used. -/
structure Services where
  image : UInt64
  table : SystemTable
  live : Bool := true

namespace Services

variable (efi : Services)

/-- Gives the services up, for good. -/
def giveUp (efi : Services) : Services := { efi with live := false }

/-- The line written when services are used that have been given up. -/
def misuse : String := "LBL: firmware service used after ExitBootServices\n"

/-- Goes on only while the services may be used. -/
def check : Action Unit :=
  if efi.live then .done () else do
    perform (.debugWrite misuse)
    perform .halt
    .stop

/-- A call that goes through the services. -/
def call (q : Call) : Action q.Reply := do
  efi.check
  perform q

theorem check_of_live {efi : Services} (h : efi.live = true) : efi.check = .done () := by
  simp [check, h]

theorem call_eq_of_live {efi : Services} (h : efi.live = true) (q : Call) :
    efi.call q = perform q := by
  simp [call, check, h]

theorem call_eq_of_not_live {efi : Services} (h : efi.live = false) (q : Call) :
    efi.call q = perform (.debugWrite misuse) >>= fun _ => perform .halt >>= fun _ => .stop := by
  simp [call, check, h, perform, Program.request]

/-- Memory from the pool: its address, or zero. -/
def allocate (size : UInt64) : Action UInt64 := do
  let got ← efi.call (.allocatePool loaderData size)
  return if got.status.isError then 0 else got.value

/-- Gives memory back to the pool. -/
def free (buffer : UInt64) : Action Unit := do
  let _ ← efi.call (.freePool buffer)

/-- Writes text on the console. -/
def print (text : String) : Action Unit := do
  efi.call (.outputString text)

/-- Writes a decimal numeral on the console. -/
def printDecimal (value : UInt64) : Action Unit := efi.print (decimal value)

/-- Writes a hexadecimal numeral on the console. -/
def printHexadecimal (value : UInt64) : Action Unit := efi.print (hexadecimal value)

/-- Sets the colours of the text that follows. -/
def setColour (colour : UInt64) : Action Unit := do
  efi.call (.setColour colour)

/-- Waits. -/
def stall (microseconds : UInt64) : Action Unit := do
  efi.call (.stall microseconds)

end Services

/-- The colours of the console. -/
def lightGrey : UInt64 := 0x07
def lightCyan : UInt64 := 0x0B
def lightRed : UInt64 := 0x0C
def yellow : UInt64 := 0x0E
def white : UInt64 := 0x0F

end Bootloader.Uefi
