import Rucoonos.Proofs.Acpi.Boot
import Rucoonos.Proofs.Acpi.Decode
import Rucoonos.Proofs.Device.Dma
import Rucoonos.Proofs.Device.Receive
import Rucoonos.Proofs.Device.Reclaim
import Rucoonos.Proofs.Device.Registers
import Rucoonos.Proofs.Display.Vga
import Rucoonos.Proofs.Display.Video
import Rucoonos.Proofs.Hardware.Pci
import Rucoonos.Proofs.Hardware.Period
import Rucoonos.Proofs.Interrupts.Idt
import Rucoonos.Proofs.Kernel.Completion
import Rucoonos.Proofs.Kernel.Idle
import Rucoonos.Proofs.Kernel.Progress
import Rucoonos.Proofs.Kernel.Waker
import Rucoonos.Proofs.Logging.Render
import Rucoonos.Proofs.Memory.Enumeration
import Rucoonos.Proofs.Net.Codec
import Rucoonos.Proofs.Net.Echoes
import Rucoonos.Proofs.Net.Failures
import Rucoonos.Proofs.Net.HostRest
import Rucoonos.Proofs.Net.Neighbours
import Rucoonos.Proofs.Net.Offers
import Rucoonos.Proofs.Net.Responder
import Rucoonos.Proofs.Net.Segment
