import RustyRouter.Lan.Server
import RustyRouter.Text.Separated

/-! The `lan_ip` setting.

Two functions read it: `configure_interface` takes it apart at its slashes and reads the
pieces with the standard library, `start_dhcp_server` hands it to the `ipnet` crate as it
is. They agree on a dotted quad, a slash and a plain number of bits; `agree_iff` says on
which settings they do not. -/
namespace RustyRouter.Lan

/-! ### Numbers and addresses in text -/

/-- What `str::parse` makes of decimal digits. -/
def readDecimal (s : List Char) : Option Nat :=
  if s ≠ [] ∧ s.all Char.isDigit then some (s.foldl (fun value c => 10 * value + (c.toNat - 48)) 0) else none

def stripPlus : List Char → List Char
  | '+' :: rest => rest
  | s => s

/-- `u8::from_str`: there may be a plus sign. -/
def u8FromStr (s : List Char) : Option UInt8 :=
  match readDecimal (stripPlus s) with
  | some value => if value < 256 then some (UInt8.ofNat value) else none
  | none => none

/-- A number of a dotted quad has up to three digits, and no leading zero. -/
def readOctet (s : List Char) : Option UInt8 :=
  match readDecimal s with
  | some value =>
    if s.length ≤ 3 ∧ (s.length = 1 ∨ s.head? ≠ some '0') ∧ value < 256 then some (UInt8.ofNat value) else none
  | none => none

/-- `Ipv4Addr::from_str` -/
def ipv4FromStr (s : List Char) : Option Ipv4Addr :=
  match (s.splitOn '.').mapM readOctet with
  | some [a, b, c, d] => some (Ipv4Addr.new a b c d)
  | _ => none

/-- `std::net::Ipv6Addr` -/
abbrev Ipv6Addr := BitVec 128

inductive IpAddr where
  | v4 (ip : Ipv4Addr)
  | v6 (ip : Ipv6Addr)
  deriving DecidableEq, Repr

/-- `IpAddr::from_str`, over any reader of IPv6 addresses. -/
def ipAddrFromStr (ipv6FromStr : List Char → Option Ipv6Addr) (s : List Char) : Option IpAddr :=
  match ipv4FromStr s with
  | some ip => some (.v4 ip)
  | none => (ipv6FromStr s).map .v6

/-! ### The interface -/

/-- The address and the prefix length in an `ip_cidr`. -/
def readCidr (ipv6FromStr : List Char → Option Ipv6Addr) (cidr : List Char) : Option (IpAddr × UInt8) := do
  let parts := cidr.splitOn '/'
  let pfx ← if 1 < parts.length then u8FromStr (parts.getD 1 []) else some 24
  let ip ← ipAddrFromStr ipv6FromStr (parts.getD 0 [])
  return (ip, pfx)

/-- What `configure_interface` asks of the kernel. -/
inductive LinkRequest where
  | up (index : Nat)
  | addAddress (index : Nat) (ip : IpAddr) (pfx : UInt8)
  deriving DecidableEq, Repr

/-- The requests that are made, given the index of the link and whether it goes up, and
whether the function succeeds. That the address cannot be added is not an error. -/
def configureInterface (ipv6FromStr : List Char → Option Ipv6Addr) (link : Option Nat) (up : Bool)
    (ipCidr : Option (List Char)) : List LinkRequest × Bool :=
  match link with
  | none => ([], false)
  | some index =>
    if up then
      match ipCidr with
      | none => ([.up index], true)
      | some cidr =>
        match readCidr ipv6FromStr cidr with
        | none => ([.up index], false)
        | some (ip, pfx) => ([.up index, .addAddress index ip pfx], true)
    else ([.up index], false)

/-! ### The server -/

/-- The parser of `ipnet::Ipv4Net`, and how many digits it reads of a number, if there is a
bound. -/
structure Ipnet where
  parse : List Char → Option Ipv4Net
  maxDigits : Option Nat

/-- The digits are read as a prefix length. -/
def Ipnet.ReadsLength (ipnet : Ipnet) (digits : List Char) (prefixLen : Nat) : Prop :=
  readDecimal digits = some prefixLen ∧ prefixLen ≤ 32 ∧ ∀ n, ipnet.maxDigits = some n → digits.length ≤ n

/-- It accepts exactly a dotted quad, a slash and a number up to 32, and reads the quad as
the standard library does. -/
structure Ipnet.Documented (ipnet : Ipnet) : Prop where
  parse_iff : ∀ s addr prefixLen,
    (∃ net, ipnet.parse s = some net ∧ net.addr = addr ∧ net.prefixLen = prefixLen) ↔
      ∃ quad digits, s = quad ++ '/' :: digits ∧ ipv4FromStr quad = some addr ∧
        ipnet.ReadsLength digits prefixLen

/-- The configuration that the server comes up with; it does not where the setting is
invalid. -/
def startDhcpServer (ipnet : Ipnet) (lanIp : List Char) (serverMac : MacAddr) : Option ServerConfig :=
  match ipnet.parse lanIp with
  | none => none
  | some net => some (.ofNet net serverMac)

/-- `192.168.1.1/24` in its two readings. -/
example : readCidr (fun _ => none) "192.168.1.1/24".toList = some (.v4 (Ipv4Addr.new 192 168 1 1), 24) := by
  decide +kernel

/-! ### What the readers accept -/

theorem isDigit_of_readDecimal {s : List Char} {value : Nat} (h : readDecimal s = some value) {c : Char}
    (hc : c ∈ s) : c.isDigit = true := by
  unfold readDecimal at h
  split at h
  · rename_i hdigits
    exact List.all_eq_true.mp hdigits.2 c hc
  · simp at h

theorem isDigit_of_readOctet {s : List Char} {octet : UInt8} (h : readOctet s = some octet) {c : Char}
    (hc : c ∈ s) : c.isDigit = true := by
  unfold readOctet at h
  split at h
  · exact isDigit_of_readDecimal ‹_› hc
  · simp at h

theorem exists_of_mapM {α β : Type} {f : α → Option β} {xs : List α} {ys : List β} (h : xs.mapM f = some ys) :
    ∀ x ∈ xs, ∃ y, f x = some y := by
  induction xs generalizing ys with
  | nil => simp
  | cons x xs ih =>
    rw [List.mapM_cons] at h
    obtain ⟨y, hy, hrest⟩ := Option.bind_eq_some_iff.mp h
    obtain ⟨zs, hzs, -⟩ := Option.bind_eq_some_iff.mp hrest
    intro z hz
    rcases List.mem_cons.mp hz with rfl | hz
    · exact ⟨y, hy⟩
    · exact ih hzs z hz

theorem slash_not_mem_quad {quad : List Char} {addr : Ipv4Addr} (h : ipv4FromStr quad = some addr) :
    '/' ∉ quad := by
  unfold ipv4FromStr at h
  split at h
  · rename_i a b c d hparts
    intro hslash
    have hjoin : ['.'].intercalate (quad.splitOn '.') = quad := List.intercalate_splitOn '.'
    rw [← hjoin] at hslash
    rcases Text.mem_join hslash with hdot | ⟨field, hfield, hmem⟩
    · simp at hdot
    · obtain ⟨octet, hoctet⟩ := exists_of_mapM hparts field hfield
      exact absurd (isDigit_of_readOctet hoctet hmem) (by decide)
  · simp at h

theorem u8FromStr_eq_some {text : List Char} {value : UInt8} :
    u8FromStr text = some value ↔ readDecimal (stripPlus text) = some value.toNat := by
  unfold u8FromStr
  cases readDecimal (stripPlus text) with
  | none => simp
  | some v =>
    have hlt := value.toNat_lt
    simp only [Option.ite_none_right_eq_some, Option.some.injEq, ← UInt8.toNat_inj, UInt8.toNat_ofNat']
    omega

theorem stripPlus_of_unsigned {text : List Char} (h : ∀ digits, text ≠ '+' :: digits) : stripPlus text = text := by
  unfold stripPlus
  split
  · exact absurd rfl (h _)
  · rfl

theorem slash_not_mem_number {text : List Char} {value : UInt8} (h : u8FromStr text = some value) :
    '/' ∉ text := by
  intro hslash
  have hstripped : '/' ∈ stripPlus text := by
    unfold stripPlus
    split
    · exact (List.mem_cons.mp hslash).resolve_left (by decide)
    · exact hslash
  exact absurd (isDigit_of_readDecimal (u8FromStr_eq_some.mp h) hstripped) (by decide)

theorem ipAddrFromStr_v4 (ipv6FromStr : List Char → Option Ipv6Addr) {s : List Char} {addr : Ipv4Addr} :
    ipAddrFromStr ipv6FromStr s = some (.v4 addr) ↔ ipv4FromStr s = some addr := by
  unfold ipAddrFromStr
  cases ipv4FromStr s with
  | none => simp
  | some ip => simp

variable {ipv6FromStr : List Char → Option Ipv6Addr} {ipnet : Ipnet} {quad text tail more s : List Char}
  {addr : Ipv4Addr} {pfx : UInt8}

theorem readCidr_bare (hquad : '/' ∉ quad) :
    readCidr ipv6FromStr quad = some (.v4 addr, pfx) ↔ ipv4FromStr quad = some addr ∧ pfx = 24 := by
  have hread : readCidr ipv6FromStr quad = (ipAddrFromStr ipv6FromStr quad).bind fun ip => some (ip, 24) := by
    unfold readCidr
    rw [List.splitOn_eq_singleton hquad]
    rfl
  rw [hread, ← ipAddrFromStr_v4 ipv6FromStr, Option.bind_eq_some_iff]
  simp [eq_comm]

/-- What comes after a second slash is not looked at. -/
theorem readCidr_slash (hquad : '/' ∉ quad) (htext : '/' ∉ text)
    (htail : tail = text ∨ ∃ more, tail = text ++ '/' :: more) :
    readCidr ipv6FromStr (quad ++ '/' :: tail) = some (.v4 addr, pfx) ↔
      ipv4FromStr quad = some addr ∧ u8FromStr text = some pfx := by
  have hsplit : ∃ rest, tail.splitOn '/' = text :: rest := by
    rcases htail with rfl | ⟨more, rfl⟩
    · exact ⟨[], List.splitOn_eq_singleton htext⟩
    · exact ⟨_, List.splitOn_append_cons_self_of_not_mem htext more⟩
  obtain ⟨rest, hrest⟩ := hsplit
  have hread : readCidr ipv6FromStr (quad ++ '/' :: tail) =
      (u8FromStr text).bind fun pfx => (ipAddrFromStr ipv6FromStr quad).bind fun ip => some (ip, pfx) := by
    unfold readCidr
    rw [List.splitOn_append_cons_self_of_not_mem hquad, hrest]
    rfl
  rw [hread, ← ipAddrFromStr_v4 ipv6FromStr, Option.bind_eq_some_iff]
  simp only [Option.bind_eq_some_iff, Option.some.injEq, Prod.mk.injEq]
  constructor
  · intro ⟨pfx', hpfx, ip, hip, heq, heq'⟩
    subst heq heq'
    exact ⟨hip, hpfx⟩
  · intro ⟨hip, hpfx⟩
    exact ⟨pfx, hpfx, .v4 addr, hip, rfl, rfl⟩

/-- The address is added precisely if it is what the setting is read as. -/
theorem configureInterface_adds {link : Option Nat} {up : Bool} {index : Nat} {ip : IpAddr} :
    .addAddress index ip pfx ∈ (configureInterface ipv6FromStr link up (some s)).1 ↔
      link = some index ∧ up = true ∧ readCidr ipv6FromStr s = some (ip, pfx) := by
  cases link with
  | none => simp [configureInterface]
  | some i =>
    cases up with
    | false => simp [configureInterface]
    | true =>
      simp only [configureInterface, if_true]
      cases readCidr ipv6FromStr s with
      | none => simp
      | some read => simp [Prod.ext_iff, eq_comm]

/-! ### Where the readings differ -/

/-- An IPv4 setting that the interface is configured from and the server does not accept:
without a slash, with a second one, with a sign, or with more digits than are read. -/
inductive Misread (ipnet : Ipnet) : List Char → Prop
  | bare {quad : List Char} {addr : Ipv4Addr} (hquad : ipv4FromStr quad = some addr) : Misread ipnet quad
  | trailing {quad text : List Char} {addr : Ipv4Addr} {pfx : UInt8} (hquad : ipv4FromStr quad = some addr)
      (htext : u8FromStr text = some pfx) (hle : pfx ≤ 32) (more : List Char) :
      Misread ipnet (quad ++ '/' :: (text ++ '/' :: more))
  | signed {quad digits : List Char} {addr : Ipv4Addr} {pfx : UInt8} (hquad : ipv4FromStr quad = some addr)
      (htext : u8FromStr ('+' :: digits) = some pfx) (hle : pfx ≤ 32) :
      Misread ipnet (quad ++ '/' :: '+' :: digits)
  | long {quad text : List Char} {addr : Ipv4Addr} {pfx : UInt8} {n : Nat}
      (hquad : ipv4FromStr quad = some addr) (htext : u8FromStr text = some pfx) (hle : pfx ≤ 32)
      (hmax : ipnet.maxDigits = some n) (hlong : n < text.length) : Misread ipnet (quad ++ '/' :: text)

/-- The interface and the server come up with one address and prefix length: the server
serves what the interface was given, and the other way round. -/
structure Agree (ipnet : Ipnet) (ipv6FromStr : List Char → Option Ipv6Addr) (s : List Char) : Prop where
  served : ∀ link up index addr pfx serverMac, pfx ≤ 32 →
    .addAddress index (.v4 addr) pfx ∈ (configureInterface ipv6FromStr link up (some s)).1 →
    ∃ config, startDhcpServer ipnet s serverMac = some config ∧ config.serverIp = addr ∧
      config.net.addr = addr ∧ config.net.prefixLen = pfx.toNat
  configured : ∀ serverMac config index, startDhcpServer ipnet s serverMac = some config →
    ∃ pfx, pfx.toNat = config.net.prefixLen ∧
      .addAddress index (.v4 config.net.addr) pfx ∈ (configureInterface ipv6FromStr (some index) true (some s)).1

theorem startDhcpServer_eq_some {serverMac : MacAddr} {config : ServerConfig} :
    startDhcpServer ipnet s serverMac = some config ↔ ∃ net, ipnet.parse s = some net ∧ config = .ofNet net serverMac := by
  unfold startDhcpServer
  cases ipnet.parse s with
  | none => simp
  | some net => simp [eq_comm]

/-- What the server accepts, the interface is configured from. -/
theorem configured_of_parse (hdoc : ipnet.Documented) {net : Ipv4Net} (h : ipnet.parse s = some net) :
    ∃ pfx, pfx.toNat = net.prefixLen ∧ readCidr ipv6FromStr s = some (.v4 net.addr, pfx) := by
  obtain ⟨quad, digits, rfl, hquad, hdigits, hle, -⟩ := (hdoc.parse_iff s _ _).mp ⟨net, h, rfl, rfl⟩
  have hpfx : (UInt8.ofNat net.prefixLen).toNat = net.prefixLen := by
    rw [UInt8.toNat_ofNat']
    omega
  have hdigit : ∀ c ∈ digits, c.isDigit = true := fun c => isDigit_of_readDecimal hdigits
  have hunsigned : stripPlus digits = digits := by
    apply stripPlus_of_unsigned
    intro rest heq
    exact absurd (hdigit '+' (heq ▸ List.mem_cons_self)) (by decide)
  have htext : u8FromStr digits = some (UInt8.ofNat net.prefixLen) := by
    rw [u8FromStr_eq_some, hunsigned, hpfx, hdigits]
  exact ⟨_, hpfx, (readCidr_slash (slash_not_mem_quad hquad) (slash_not_mem_number htext)
    (.inl rfl)).mpr ⟨hquad, htext⟩⟩

/-- A misread setting is one that the interface is configured from. -/
theorem Misread.read (h : Misread ipnet s) :
    ∃ addr pfx, pfx ≤ 32 ∧ readCidr ipv6FromStr s = some (.v4 addr, pfx) := by
  cases h with
  | bare hquad => exact ⟨_, 24, by decide, (readCidr_bare (slash_not_mem_quad hquad)).mpr ⟨hquad, rfl⟩⟩
  | trailing hquad htext hle more =>
    exact ⟨_, _, hle, (readCidr_slash (slash_not_mem_quad hquad) (slash_not_mem_number htext)
      (.inr ⟨more, rfl⟩)).mpr ⟨hquad, htext⟩⟩
  | signed hquad htext hle =>
    exact ⟨_, _, hle, (readCidr_slash (slash_not_mem_quad hquad) (slash_not_mem_number htext)
      (.inl rfl)).mpr ⟨hquad, htext⟩⟩
  | long hquad htext hle =>
    exact ⟨_, _, hle, (readCidr_slash (slash_not_mem_quad hquad) (slash_not_mem_number htext)
      (.inl rfl)).mpr ⟨hquad, htext⟩⟩

/-- The server does not accept a misread setting. -/
theorem Misread.rejected (hdoc : ipnet.Documented) (h : Misread ipnet s) : ipnet.parse s = none := by
  cases hparse : ipnet.parse s with
  | none => rfl
  | some net =>
    exfalso
    obtain ⟨quad, digits, heq, hquad, hdigits, -, hmax⟩ := (hdoc.parse_iff s _ _).mp ⟨net, hparse, rfl, rfl⟩
    have hdigit : ∀ c ∈ digits, c.isDigit = true := fun c => isDigit_of_readDecimal hdigits
    cases h with
    | bare hbare =>
      refine slash_not_mem_quad hbare ?_
      rw [heq]
      simp
    | trailing hquad' htext hle more =>
      obtain ⟨-, rfl⟩ := Text.first_field_inj (slash_not_mem_quad hquad') (slash_not_mem_quad hquad) heq
      exact absurd (hdigit '/' (by simp)) (by decide)
    | signed hquad' =>
      obtain ⟨-, rfl⟩ := Text.first_field_inj (slash_not_mem_quad hquad') (slash_not_mem_quad hquad) heq
      exact absurd (hdigit '+' List.mem_cons_self) (by decide)
    | long hquad' htext hle hn hlong =>
      obtain ⟨-, rfl⟩ := Text.first_field_inj (slash_not_mem_quad hquad') (slash_not_mem_quad hquad) heq
      exact absurd (hmax _ hn) (Nat.not_le.mpr hlong)

/-- Every other setting is served as it is configured. -/
theorem served_of_read (hdoc : ipnet.Documented) (hread : readCidr ipv6FromStr s = some (.v4 addr, pfx))
    (hle : pfx ≤ 32) (h : ¬ Misread ipnet s) :
    ∃ net, ipnet.parse s = some net ∧ net.addr = addr ∧ net.prefixLen = pfx.toNat := by
  rcases Text.splitOn_cases '/' s with ⟨hbare, -⟩ | ⟨quad, tail, rfl, hquad, -⟩
  · exact absurd (.bare ((readCidr_bare hbare).mp hread).1) h
  · rcases Text.splitOn_cases '/' tail with ⟨htext, -⟩ | ⟨text, more, rfl, htext, -⟩
    · obtain ⟨haddr, hpfx⟩ := (readCidr_slash hquad htext (.inl rfl)).mp hread
      have hunsigned : stripPlus tail = tail := by
        apply stripPlus_of_unsigned
        intro digits heq
        subst heq
        exact h (.signed haddr hpfx hle)
      refine (hdoc.parse_iff _ _ _).mpr ⟨quad, tail, rfl, haddr, ?_, UInt8.le_iff_toNat_le.mp hle, ?_⟩
      · rw [← u8FromStr_eq_some.mp hpfx, hunsigned]
      · intro n hn
        by_contra hlong
        exact h (.long haddr hpfx hle hn (Nat.not_le.mp hlong))
    · obtain ⟨haddr, hpfx⟩ := (readCidr_slash hquad htext (.inr ⟨more, rfl⟩)).mp hread
      exact absurd (.trailing haddr hpfx hle more) h

/-- **The setting has one meaning**, unless it is of the kinds that only the interface is
configured from. -/
theorem agree_iff (ipnet : Ipnet) (hdoc : ipnet.Documented) (ipv6FromStr : List Char → Option Ipv6Addr)
    (s : List Char) : Agree ipnet ipv6FromStr s ↔ ¬ Misread ipnet s := by
  constructor
  · intro hagree hmisread
    obtain ⟨addr, pfx, hle, hread⟩ : ∃ addr pfx, pfx ≤ 32 ∧
        readCidr ipv6FromStr s = some (.v4 addr, pfx) := hmisread.read
    obtain ⟨config, hconfig, -⟩ := hagree.served (some 0) true 0 addr pfx MacAddr.broadcast hle
      (configureInterface_adds.mpr ⟨rfl, rfl, hread⟩)
    obtain ⟨net, hnet, -⟩ := startDhcpServer_eq_some.mp hconfig
    exact absurd (hnet.symm.trans (hmisread.rejected hdoc)) (by simp)
  · intro h
    constructor
    · intro link up index addr pfx serverMac hle hadds
      obtain ⟨-, -, hread⟩ := configureInterface_adds.mp hadds
      obtain ⟨net, hnet, haddr, hlen⟩ := served_of_read hdoc hread hle h
      exact ⟨.ofNet net serverMac, startDhcpServer_eq_some.mpr ⟨net, hnet, rfl⟩, haddr, haddr, hlen⟩
    · intro serverMac config index hconfig
      obtain ⟨net, hnet, rfl⟩ := startDhcpServer_eq_some.mp hconfig
      obtain ⟨pfx, hpfx, hread⟩ := configured_of_parse hdoc hnet
      exact ⟨pfx, hpfx, configureInterface_adds.mpr ⟨rfl, rfl, hread⟩⟩

/-! ### A parser with these properties -/

/-- It reads numbers of up to two digits. -/
def plainIpnet : Ipnet where
  parse s :=
    match s.splitOn '/' with
    | [quad, digits] =>
      match ipv4FromStr quad, readDecimal digits with
      | some addr, some prefixLen =>
        if prefixLen ≤ 32 ∧ digits.length ≤ 2 then some (.ofBlock addr prefixLen) else none
      | _, _ => none
    | _ => none
  maxDigits := some 2

theorem plainIpnet_parse {quad digits : List Char} (hquad : ipv4FromStr quad = some addr) {prefixLen : Nat}
    (hdigits : plainIpnet.ReadsLength digits prefixLen) :
    plainIpnet.parse (quad ++ '/' :: digits) = some (.ofBlock addr prefixLen) := by
  obtain ⟨hread, hle, hmax⟩ := hdigits
  have hslash : '/' ∉ digits := fun h => absurd (isDigit_of_readDecimal hread h) (by decide)
  simp only [plainIpnet]
  rw [List.splitOn_append_cons_self_of_not_mem (slash_not_mem_quad hquad), List.splitOn_eq_singleton hslash]
  simp only [hquad, hread]
  rw [if_pos ⟨hle, hmax 2 rfl⟩]

theorem plainIpnet_documented : plainIpnet.Documented where
  parse_iff s addr prefixLen := by
    constructor
    · intro ⟨net, hparse, haddr, hlen⟩
      simp only [plainIpnet] at hparse
      split at hparse
      · rename_i quad digits hsplit
        split at hparse
        · rename_i addr' len' hquad hdigits
          split at hparse
          · rename_i hbounds
            obtain rfl := Option.some.inj hparse
            have hjoin : ['/'].intercalate (s.splitOn '/') = s := List.intercalate_splitOn '/'
            rw [hsplit] at hjoin
            subst haddr hlen
            exact ⟨quad, digits, by simpa using hjoin.symm, hquad, hdigits, hbounds.1,
              fun n hn => Option.some.inj hn ▸ hbounds.2⟩
          · simp at hparse
        · simp at hparse
      · simp at hparse
    · intro ⟨quad, digits, hs, hquad, hdigits⟩
      subst hs
      exact ⟨_, plainIpnet_parse hquad hdigits, rfl, rfl⟩

/-- `192.168.1.1/24` -/
theorem agree_iff_slash24 : Agree plainIpnet (fun _ => none) "192.168.1.1/24".toList := by
  apply (agree_iff plainIpnet plainIpnet_documented (fun _ => none) _).mpr
  intro hmisread
  have hparse : (plainIpnet.parse "192.168.1.1/24".toList).isSome = true := by decide +kernel
  rw [hmisread.rejected plainIpnet_documented] at hparse
  exact absurd hparse (by decide)

/-- The setting without a prefix length configures the interface, and no server. -/
theorem bare_setting_disagrees : ¬ ∀ ipnet : Ipnet, ipnet.Documented → ∀ ipv6FromStr s, Agree ipnet ipv6FromStr s := by
  intro h
  have hagree := h plainIpnet plainIpnet_documented (fun _ => none) "192.168.1.1".toList
  have hadds : .addAddress 0 (.v4 (Ipv4Addr.new 192 168 1 1)) 24 ∈
      (configureInterface (fun _ => none) (some 0) true (some "192.168.1.1".toList)).1 := by
    decide +kernel
  obtain ⟨config, hconfig, -⟩ := hagree.served _ _ _ _ _ MacAddr.broadcast (by decide) hadds
  obtain ⟨net, hnet, -⟩ := startDhcpServer_eq_some.mp hconfig
  have hparse : (plainIpnet.parse "192.168.1.1".toList).isSome = false := by decide +kernel
  exact absurd (hparse.symm.trans (congrArg Option.isSome hnet)) (by simp)

end RustyRouter.Lan
