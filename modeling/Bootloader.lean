import Bootloader.Main
import Bootloader.Proofs.Bytes
import Bootloader.Proofs.CopyAndFill
import Bootloader.Proofs.ImageBounds
import Bootloader.Proofs.ImageDemands
import Bootloader.Proofs.ImageTool
import Bootloader.Proofs.Legacy.BoundedPolling
import Bootloader.Proofs.Legacy.Conventions
import Bootloader.Proofs.Legacy.GateVerdict
import Bootloader.Proofs.Legacy.HandedOver
import Bootloader.Proofs.Legacy.PortDiscipline
import Bootloader.Proofs.Legacy.Probing
import Bootloader.Proofs.Legacy.RegionCheck
import Bootloader.Proofs.Legacy.RequestBounds
import Bootloader.Proofs.Legacy.ScreenText
import Bootloader.Proofs.Legacy.SecondStage
import Bootloader.Proofs.Legacy.SegmentReading
import Bootloader.Proofs.Numeral
import Bootloader.Proofs.Serial
import Bootloader.Proofs.Uefi.AcpiRoot
import Bootloader.Proofs.Uefi.CleanReturn
import Bootloader.Proofs.Uefi.DescriptorStride
import Bootloader.Proofs.Uefi.FileHandles
import Bootloader.Proofs.Uefi.Framebuffer
import Bootloader.Proofs.Uefi.Lifecycle
import Bootloader.Proofs.Uefi.LiveEntry
import Bootloader.Proofs.Uefi.MapVerdict
import Bootloader.Proofs.Uefi.QueryContract
import Bootloader.Proofs.Uefi.Returned
import Bootloader.Proofs.Uefi.ServicesRevision
import Bootloader.Proofs.Uefi.SnapshotKept
import Bootloader.Proofs.Uefi.VolumeSearch
import Bootloader.Scripted.Bios
import Bootloader.Scripted.Core
import Bootloader.Scripted.FileStore
import Bootloader.Scripted.Session
