/-
The networking handler: `extensions/networking/handler.rs`, with the device record of
`hardware/device.rs`.

The handler is a loop over messages.  One message is one step: `handle` gives the
state after it, or the panic it ends in.  Handles to shared objects are numbers into
the handler's state: the indicators of the DHCP exchanges, the result flags of pings
and the return queues of ARP requests.

A device's packet queue is the list of what was ever enqueued on it; taking packets
off it is the business of the driver.
-/
import Rucoonos.Net.Arp
import Rucoonos.Net.Dhcp
import Rucoonos.Net.Icmp

namespace Rucoonos.Net

open Slice

/-! ### Devices -/

/-- `DHCPExchange`. -/
inductive DHCPExchange
  | initial
  | discover (indicator : Nat) (transactionId : UInt32)
  | requested (indicator : Nat) (transactionId : UInt32) (ownIp serverIp : Ip)
  | done
  deriving DecidableEq, Repr

/-- `NetworkingMetadata`. -/
structure NetworkingMetadata where
  mac : Mac
  ip : Option Ip
  dhcp : DHCPExchange
  deriving DecidableEq, Repr

/-- `NetworkDevice`, less the fields the handler does not use. -/
structure NetworkDevice where
  id : Nat
  metadata : NetworkingMetadata
  packetQueue : List Ethernet.Packet
  deriving DecidableEq, Repr

/-- A device as `E1000Driver::new` and the set-up of the extension make it. -/
def NetworkDevice.new (id : Nat) (mac : Mac) : NetworkDevice := ⟨id, ⟨mac, none, .initial⟩, []⟩

def NetworkDevice.enqueue (d : NetworkDevice) (packet : Ethernet.Packet) : NetworkDevice :=
  { d with packetQueue := d.packetQueue ++ [packet] }

/-- What happens to the device that `devices.iter_mut().find(|d| d.id == id)` gives. -/
def updateFirst (id : Nat) (f : NetworkDevice → NetworkDevice) :
    List NetworkDevice → List NetworkDevice
  | [] => []
  | d :: rest => if d.id = id then f d :: rest else d :: updateFirst id f rest

/-! ### Messages and the state of the handler -/

/-- The queue an ARP request is answered on: `nolock::queues::spsc::bounded`. -/
structure RetQueue where
  capacity : Nat
  items : List Mac
  senderAlive : Bool
  receiverAlive : Bool
  deriving DecidableEq, Repr

/-- `try_enqueue`, which fails when the queue is full or its receiver gone. -/
def RetQueue.tryEnqueue (q : RetQueue) (mac : Mac) : Option RetQueue :=
  if q.receiverAlive = true ∧ q.items.length < q.capacity then
    some { q with items := q.items ++ [mac] }
  else none

def RetQueue.dropSender (q : RetQueue) : RetQueue := { q with senderAlive := false }

/-- `ActionRequest`. -/
inductive ActionRequest
  | sendArpRequest (ip : Ip) (retQueue : Nat)
  | pingRequest (waker : Nat) (ip : Ip) (mac : Mac) (result : Nat)
  deriving DecidableEq, Repr

/-- `HandlerMessage`. -/
inductive HandlerMessage
  | packet (raw : RawPacket)
  | action (request : ActionRequest)
  deriving DecidableEq, Repr

/-- The devices, the `Bindings`, and what the handles of both stand for. -/
structure Handler where
  devices : List NetworkDevice
  /-- The flags of the DHCP exchanges. -/
  indicators : Nat → Bool
  /-- `IPS`. -/
  ips : Ip → Option Mac
  udp : UInt16 → Option Nat
  /-- The datagrams offered to bound ports, in order. -/
  offered : List (Nat × Udp.Packet)
  arp : Ip → Option Nat
  retQueues : Nat → RetQueue
  ping : Ip → Option (Nat × Nat)
  /-- The flags of the pings. -/
  results : Nat → Bool
  /-- The wakers of pings that were woken, in order. -/
  woken : List Nat

def Handler.update (h : Handler) (id : Nat) (f : NetworkDevice → NetworkDevice) : Handler :=
  { h with devices := updateFirst id f h.devices }

/-! ### Setting up -/

def txId : UInt32 := 0x12345678

/-- The loop at the start of `network_handler`, with the indicators numbered from `next`. -/
def setupDevices (next : Nat) : List NetworkDevice → Exec (List NetworkDevice)
  | [] => return []
  | d :: rest => do
      let packet ← Dhcp.discoverMessage d.metadata.mac txId 13
      let packet ← unwrap packet
      let d := { d with metadata := { d.metadata with dhcp := .discover next txId } }
      let rest ← setupDevices (next + 1) rest
      return d.enqueue packet :: rest

/-- The state `network_handler` enters its loop with.  The queues and flags of requests to
come are whatever their makers make them. -/
def Handler.setup (devices : List NetworkDevice) (retQueues : Nat → RetQueue) : Exec Handler := do
  let devices ← setupDevices 0 devices
  return {
    devices
    indicators := fun _ => false
    ips := fun _ => none
    udp := fun _ => none
    offered := []
    arp := fun _ => none
    retQueues
    ping := fun _ => none
    results := fun _ => false
    woken := [] }

/-! ### Packets -/

/-- The arm for ARP packets. -/
def handleArp (device : NetworkDevice) (arpPacket : Arp.Packet) (h : Handler) : Exec Handler :=
  match arpPacket.operation with
  | .request =>
      match device.metadata.ip with
      | none => return h
      | some ip => do
          if ip ≠ arpPacket.destIp then return h
          let reply ← Arp.PacketBuilder.finish {
            senderMac := device.metadata.mac
            senderIp := ip
            mac := arpPacket.srcMac
            ip := arpPacket.srcIp
            operation := Arp.Operation.response.toU16 }
          let reply ← unwrap reply
          return h.update device.id (·.enqueue reply)
  | .response => do
      let h := { h with ips := Function.update h.ips arpPacket.srcIp (some arpPacket.srcMac) }
      match h.arp arpPacket.srcIp with
      | none => return h
      | some listeners =>
          let queue ← unwrap ((h.retQueues listeners).tryEnqueue arpPacket.srcMac)
          return { h with
            arp := Function.update h.arp arpPacket.srcIp none
            retQueues := Function.update h.retQueues listeners queue.dropSender }
  | .unknown _ => return h

/-- The arm for ICMP packets. -/
def handleIcmp (icmpPacket : Icmp.Packet) (h : Handler) : Exec Handler := do
  match ← icmpPacket.getType with
  | .echoRequest _ _ =>
      let _ipHeader ← icmpPacket.ipPacket.header
      let _reqPayload ← icmpPacket.payload
      .error .todo
  | .echoReply _ _ =>
      let header ← icmpPacket.ipPacket.header
      match h.ping header.sourceIp with
      | none => return h
      | some (waker, result) =>
          return { h with
            ping := Function.update h.ping header.sourceIp none
            results := Function.update h.results result true
            woken := h.woken ++ [waker] }
  | .unknown _ => return h

/-- The arms for DHCP packets.  The state that `mem::replace` took out is put back by the
last arm, so there the device is what it was. -/
def handleDhcp (device : NetworkDevice) (dhcpData : Dhcp.Data) (h : Handler) : Exec Handler :=
  match device.metadata.dhcp, dhcpData.operation with
  | .discover indicator transactionId, .offer => do
      if transactionId ≠ dhcpData.xid then return h
      let offeredIp := dhcpData.yiaddr
      let serverIp := dhcpData.siaddr
      let request ← Dhcp.requestMessage device.metadata.mac transactionId offeredIp serverIp 0
      let request ← unwrap request
      return h.update device.id fun d =>
        { d.enqueue request with metadata := { d.metadata with
            dhcp := .requested indicator transactionId offeredIp serverIp } }
  | .requested indicator transactionId ownIp _, .ack =>
      if transactionId ≠ dhcpData.xid then return h
      else
        return { h.update device.id fun d =>
            { d with metadata := { d.metadata with dhcp := .done, ip := some ownIp } } with
          indicators := Function.update h.indicators indicator true }
  | _, _ => return h

/-- The arm for UDP packets. -/
def handleUdp (device : NetworkDevice) (udpPacket : Udp.Packet) (h : Handler) : Exec Handler := do
  let udpHeader ← udpPacket.header
  if udpHeader.sourcePort = 67 ∧ udpHeader.destinationPort = 68 then
    let dhcpData ← Dhcp.Packet.get ⟨udpPacket⟩
    handleDhcp device dhcpData h
  else
    match h.udp udpHeader.destinationPort with
    | some bindQueue => return { h with offered := h.offered ++ [(bindQueue, udpPacket)] }
    | none =>
        let _payload ← udpPacket.payload
        return h

/-- The arm for IPv4 packets. -/
def handleIpv4 (device : NetworkDevice) (ipPacket : Ipv4.Packet) (h : Handler) :
    Exec Handler := do
  match (← ipPacket.header).protocol with
  | .icmp => handleIcmp ⟨ipPacket⟩ h
  | .udp => handleUdp device ⟨ipPacket⟩ h
  | .tcp => return h
  | .unknown _ => return h

/-- `handle_packet_`, once the device is found. -/
def handleFrame (device : NetworkDevice) (ethPacket : Ethernet.Packet) (h : Handler) :
    Exec Handler := do
  let destination ← ethPacket.destinationMac
  if destination ≠ broadcastMac ∧ destination ≠ device.metadata.mac then return h
  match ← ethPacket.etherType with
  | .arp =>
      let arpPacket ← Arp.Packet.new ethPacket
      let arpPacket ← unwrap arpPacket
      handleArp device arpPacket h
  | .wakeOnLan =>
      let _content ← ethPacket.content
      return h
  | .ipv4 => handleIpv4 device ⟨ethPacket⟩ h
  | .ipv6 => return h
  | .unknown _ => return h

/-- `handle_packet_`. -/
def handlePacket (raw : RawPacket) (h : Handler) : Exec Handler := do
  let device ← unwrap (h.devices.find? (fun d => d.id == raw.id))
  handleFrame device ⟨raw.buffer⟩ h

/-! ### Actions -/

/-- One more packet on the queue of every device. -/
def enqueueAll (make : NetworkDevice → Exec (Option Ethernet.Packet)) :
    List NetworkDevice → Exec (List NetworkDevice)
  | [] => return []
  | d :: rest => do
      let packet ← make d
      let packet ← unwrap packet
      let rest ← enqueueAll make rest
      return d.enqueue packet :: rest

/-- The ARP request a device sends. -/
def arpRequest (ip : Ip) (d : NetworkDevice) : Exec (Option Ethernet.Packet) :=
  Arp.PacketBuilder.finish {
    senderMac := d.metadata.mac
    senderIp := d.metadata.ip.getD noIp
    mac := broadcastMac
    ip := ip
    operation := Arp.Operation.request.toU16 }

/-- The closure `|_| Ok(0)`. -/
def emptyWriter : Writer := .ofWrites [] 0

/-- The echo request a device sends. -/
def echoRequest (ip : Ip) (mac : Mac) (d : NetworkDevice) : Exec (Option Ethernet.Packet) :=
  Icmp.PacketBuilder.finish ⟨.echoRequest 0x1234 0x2345⟩ {
    dscp := 0
    ident := 0x1234
    ttl := 20
    protocol := .icmp
    source := d.metadata.ip.getD noIp
    sourceMac := d.metadata.mac
    destination := ip
    destinationMac := mac } emptyWriter 0

/-- The arms of `HandlerMessage::Action`.  A sender that is replaced in the map is
dropped. -/
def handleAction (h : Handler) : ActionRequest → Exec Handler
  | .sendArpRequest ip retQueue => do
      let retQueues := match h.arp ip with
        | none => h.retQueues
        | some old => Function.update h.retQueues old (h.retQueues old).dropSender
      let devices ← enqueueAll (arpRequest ip) h.devices
      return { h with devices, retQueues, arp := Function.update h.arp ip (some retQueue) }
  | .pingRequest waker ip mac result => do
      let devices ← enqueueAll (echoRequest ip mac) h.devices
      return { h with devices, ping := Function.update h.ping ip (some (waker, result)) }

/-- One message. -/
def handle (h : Handler) : HandlerMessage → Exec Handler
  | .packet raw => handlePacket raw h
  | .action request => handleAction h request

/-- One message of a run; a panic ends the run. -/
def step (h : Handler) (m : HandlerMessage) : Option Handler := (handle h m).toOption

end Rucoonos.Net
