import RustyRouter.Dns.Message
import RustyRouter.Store.HashMap
import RustyRouter.Transition

/-! The DNS forwarder as a system.

Every client query is a task of its own; one more task receives from the upstream socket,
and one prunes the cache. They share the cache and the map of pending queries, both under
locks, and a response reaches its task through a channel. An event is one task going from
one of these points to the next, or the clock moving, or the DHCP client updating the DNS
servers, so that a list of events is one interleaving of all of them.

Parts of the state are only recorded: what a task has forwarded and the datagram it got
its answer from, and which tasks had their entry taken out of the map by the receiver. A
datagram records which task's query it replies to, where it replies to one. -/
namespace RustyRouter.Dns
open Store Transition

def defaultTtlSecs : UInt32 := 30

def maxTtlSecs : UInt32 := 3600

/-- `UPSTREAM_TIMEOUT` -/
def upstreamTimeout : Nat := Duration.fromSecs 3

def fallbackDnsServer : Ipv4Addr := Ipv4Addr.new 8 8 8 8

def maxPendingQueries : Nat := 4096

abbrev TaskId := Nat

/-! ### Tasks -/

/-- What arrives on the upstream socket. -/
structure Datagram where
  source : Ipv4Addr
  payload : List UInt8
  /-- The task to whose forwarded query this is a reply. -/
  re : Option TaskId
  deriving DecidableEq, Repr

/-- The receiving end of a task's oneshot channel. -/
inductive Channel where
  | empty
  | value (d : Datagram)
  | closed
  deriving DecidableEq, Repr

/-- The transaction ID a query was registered under, and where it goes. -/
structure Registration where
  xid : UInt16
  upstreamIp : Ipv4Addr
  deriving DecidableEq, Repr

/-- Where a `handle_dns_query` task is. -/
inductive Stage where
  | lookup
  | upstream
  | register (upstreamIp : Ipv4Addr)
  | sending (reg : Registration) (forwardedQuery : List UInt8)
  | waiting (reg : Registration) (deadline : Nat)
  /-- On the failure path, about to take the entry out of the map. -/
  | cleanup (reg : Registration)
  | caching (response : List UInt8)
  | done (reply : Option (List UInt8))
  /-- An index was out of range. -/
  | panicked
  deriving DecidableEq, Repr

structure Task where
  query : List UInt8
  cacheKey : List UInt8
  stage : Stage
  rx : Channel
  /-- What was sent upstream. -/
  forwarded : Option (Registration × List UInt8)
  /-- The datagram the response was made from. -/
  answer : Option Datagram
  deriving DecidableEq, Repr

/-! ### State -/

structure CacheEntry where
  response : List UInt8
  expiry : Nat
  deriving DecidableEq, Repr

/-- `tx` is the sending end of this task's channel. -/
structure PendingQuery where
  tx : TaskId
  upstreamIp : Ipv4Addr
  deriving DecidableEq, Repr

structure ForwarderState where
  now : Nat
  dnsServers : List Ipv4Addr
  cache : HashMap (List UInt8) CacheEntry
  pendingQueries : HashMap UInt16 PendingQuery
  /-- The entry the receiver has taken out, and the datagram it did so for. -/
  receiver : Option (PendingQuery × Datagram)
  tasks : TaskId → Option Task
  /-- The tasks whose entry the receiver has taken out. -/
  taken : List TaskId

def ForwarderState.initial : ForwarderState :=
  ⟨0, [], HashMap.empty, HashMap.empty, none, fun _ => none, []⟩

/-- What a task may do next; `register` comes with the random IDs it draws. -/
inductive Act where
  | lookup
  | upstream
  | register (draws : List UInt16)
  /-- `sent true`: the query is on its way, and the wait for the response begins. -/
  | sent (ok : Bool)
  | wake
  | cleanup
  | insert
  deriving DecidableEq, Repr

inductive Event where
  | tick (now : Nat)
  | lease (dnsServers : List Ipv4Addr)
  | query (id : TaskId) (bytes : List UInt8)
  | act (id : TaskId) (act : Act)
  | receive (d : Datagram)
  | deliver
  | prune
  deriving DecidableEq, Repr

/-! ### The cache -/

/-- An entry that has run out is removed on the way. -/
def lookupCache (now : Nat) (cacheKey : List UInt8) (cache : HashMap (List UInt8) CacheEntry) :
    HashMap (List UInt8) CacheEntry × Option (List UInt8) :=
  match cache.get cacheKey with
  | some entry => if now < entry.expiry then (cache, some entry.response) else (cache.remove cacheKey, none)
  | none => (cache, none)

def insertCache (dns : DnsParser) (now : Nat) (cacheKey response : List UInt8)
    (cache : HashMap (List UInt8) CacheEntry) : HashMap (List UInt8) CacheEntry :=
  if response.length < dnsHeaderSize then cache
  else
    match dns.parse response with
    | none => cache
    | some packet =>
      let ttl := packet.answerTtls.min?.getD defaultTtlSecs
      if ttl = 0 then cache
      else cache.insert cacheKey ⟨response, now + Duration.fromSecs (min maxTtlSecs ttl).toNat⟩

/-- The first DNS server of the WAN lease, or the fallback. -/
def getUpstreamDns : List Ipv4Addr → Ipv4Addr
  | first :: _ => first
  | [] => fallbackDnsServer

/-! ### Steps -/

/-- The task still has the receiving end of its channel. -/
def Task.listens (task : Task) : Bool :=
  match task.stage with
  | .sending _ _ => true
  | .waiting _ _ => true
  | _ => false

namespace ForwarderState
variable (dns : DnsParser) (s : ForwarderState)

def setTask (id : TaskId) (task : Task) : ForwarderState :=
  { s with tasks := fun i => if i = id then some task else s.tasks i }

/-- What its sending end does to the channel of task `tx`: a value, or the closing, reaches
the task if it still listens and nothing has reached it yet. -/
def put (tx : TaskId) (channel : Channel) : ForwarderState :=
  match s.tasks tx with
  | some task => if task.listens && task.rx == .empty then s.setTask tx { task with rx := channel } else s
  | none => s

/-- A query is taken up by a new task, unless it is too short or has no cache key. -/
def spawn (id : TaskId) (bytes : List UInt8) : ForwarderState :=
  let cacheKey := if bytes.length < dnsHeaderSize then none else getCacheKey dns bytes
  match cacheKey with
  | none => s.setTask id ⟨bytes, [], .done none, .empty, none, none⟩
  | some key => s.setTask id ⟨bytes, key, .lookup, .empty, none, none⟩

/-- The removal on the failure path: whatever entry is there is dropped, and its sending
end with it. -/
def removePending (id : TaskId) (task : Task) (xid : UInt16) : ForwarderState :=
  let removed := { s with pendingQueries := s.pendingQueries.remove xid }.setTask id
    { task with stage := .done none }
  match s.pendingQueries.get xid with
  | none => removed
  | some p => removed.put p.tx .closed

/-- The steps of `handle_dns_query` and of the `forward_query` in it. -/
def taskStep (id : TaskId) (task : Task) (act : Act) : Option ForwarderState :=
  match task.stage, act with
  | .lookup, .lookup =>
    let found := lookupCache s.now task.cacheKey s.cache
    let s := { s with cache := found.1 }
    match found.2.map (withXidOf task.query) with
    | none => some (s.setTask id { task with stage := .upstream })
    | some none => some (s.setTask id { task with stage := .panicked })
    | some (some reply) => some (s.setTask id { task with stage := .done (some reply) })
  | .upstream, .upstream =>
    some (s.setTask id { task with stage := .register (getUpstreamDns s.dnsServers) })
  | .register upstreamIp, .register draws =>
    if task.query.length < dnsHeaderSize then some (s.setTask id { task with stage := .done none })
    else if maxPendingQueries ≤ s.pendingQueries.len then some (s.setTask id { task with stage := .done none })
    else
      match draws.find? fun xid => !s.pendingQueries.containsKey xid with
      | none => none
      | some xid =>
        let s := { s with pendingQueries := s.pendingQueries.insert xid ⟨id, upstreamIp⟩ }
        match withXid xid task.query with
        | none => some (s.setTask id { task with stage := .panicked })
        | some forwardedQuery =>
          some (s.setTask id { task with stage := .sending ⟨xid, upstreamIp⟩ forwardedQuery })
  | .sending reg forwardedQuery, .sent true =>
    some (s.setTask id { task with
      stage := .waiting reg (s.now + upstreamTimeout), forwarded := some (reg, forwardedQuery) })
  | .sending reg _, .sent false => some (s.setTask id { task with stage := .cleanup reg })
  | .waiting reg deadline, .wake =>
    match task.rx with
    | .value d =>
      if d.payload.length < dnsHeaderSize then some (s.setTask id { task with stage := .done none })
      else
        match withXidOf task.query d.payload with
        | none => some (s.setTask id { task with stage := .panicked })
        | some response => some (s.setTask id { task with stage := .caching response, answer := some d })
    | .closed => some (s.setTask id { task with stage := .cleanup reg })
    | .empty => if deadline ≤ s.now then some (s.setTask id { task with stage := .cleanup reg }) else none
  | .cleanup reg, .cleanup => some (s.removePending id task reg.xid)
  | .caching response, .insert =>
    some ({ s with cache := insertCache dns s.now task.cacheKey response s.cache }.setTask id
      { task with stage := .done (some response) })
  | _, _ => none

/-- The receiver looks a datagram up and takes the entry out, whoever sent it. -/
def receive (d : Datagram) : ForwarderState :=
  if d.payload.length < dnsHeaderSize then s
  else
    match xidOf d.payload with
    | none => s
    | some xid =>
      match s.pendingQueries.get xid with
      | none => s
      | some p =>
        { s with
          pendingQueries := s.pendingQueries.remove xid
          receiver := some (p, d)
          taken := p.tx :: s.taken }

/-- The receiver sends the datagram on, or drops the entry of a sender that does not match. -/
def deliver (p : PendingQuery) (d : Datagram) : ForwarderState :=
  { s.put p.tx (if d.source = p.upstreamIp then .value d else .closed) with receiver := none }

def prune : ForwarderState := { s with cache := s.cache.retain fun _ entry => decide (s.now < entry.expiry) }

end ForwarderState

/-- The forwarder takes its events one at a time, in any order. -/
def forwarder (dns : DnsParser) : System ForwarderState Event where
  step s
    | .tick now => if s.now ≤ now then some { s with now := now } else none
    | .lease dnsServers => some { s with dnsServers := dnsServers }
    | .query id bytes => if (s.tasks id).isNone then some (s.spawn dns id bytes) else none
    | .act id act => (s.tasks id).bind fun task => s.taskStep dns id task act
    | .receive d => if s.receiver.isNone then some (s.receive d) else none
    | .deliver => s.receiver.map fun (p, d) => s.deliver p d
    | .prune => some s.prune

/-- A query for a name of one letter is forwarded under the ID 7. -/
def Plain.asked (id : TaskId) (letter : UInt8) : List Event :=
  [.query id (Plain.query letter), .act id .lookup, .act id .upstream, .act id (.register [7]),
    .act id (.sent true)]

end RustyRouter.Dns
