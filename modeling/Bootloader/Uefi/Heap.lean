import Bootloader.Uefi.Services

/-!
# Memory and the abnormal end

What compiled code may call without having the services in hand: memory, and an abnormal end.  Both
work through services that have been attached.  Without services, or with services that have been
given up, there is no memory to be had and none to give back.
-/

namespace Bootloader.Uefi

/-- The services attached, if there are any. -/
abbrev Attached : Type := Option Services

namespace Attached

/-- The attached services, if they may be used. -/
def usable? : Attached → Option Services
  | none => none
  | some efi => if efi.live then some efi else none

/-- Memory; zero if there is none. -/
def allocate (attached : Attached) (size : UInt64) : Action UInt64 :=
  match attached.usable? with
  | none => .done 0
  | some efi => efi.allocate size

/-- Gives memory back. -/
def free (attached : Attached) (address : UInt64) : Action Unit :=
  match attached.usable? with
  | none => .done ()
  | some efi => if address = 0 then .done () else efi.free address

/-- Says so, on the console while there is one, and halts.  Without services it only stops. -/
def abort : Attached → Action Unit
  | none => .stop
  | some efi => do
    if efi.live then efi.print "** Aborted! **\r\n"
    perform (.debugWrite "LBL: aborted\n")
    perform .halt
    .stop

end Attached

end Bootloader.Uefi
