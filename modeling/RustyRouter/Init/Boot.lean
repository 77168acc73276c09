import RustyRouter.Init.Config
import RustyRouter.Init.Lifecycle
import RustyRouter.Kmod.Loader
import RustyRouter.Lan.Setting
import RustyRouter.Netfilter.Ruleset

/-! The start of the router.

As process 1 it mounts its file systems, loads modules, reads its configuration, sets up the
network and the firewall, and only then starts its services. What of this fails is fatal or
not: without file systems or firewall the router reboots, without network it goes on. So
where there are services there is a firewall, that of the configuration, and the interfaces
have no address but the one of the configuration (`boot_guarded`). -/
namespace RustyRouter.Init
open Text Lan Netfilter Kmod

/-- A file system without a source, flags or data. -/
structure Mount where
  target : String
  fstype : String
  deriving DecidableEq, Repr

/-- What `mount_virtual_filesystems` mounts. -/
def virtualFilesystems : List Mount := [⟨"/proc", "proc"⟩, ⟨"/sys", "sysfs"⟩, ⟨"/dev", "devtmpfs"⟩, ⟨"/run", "tmpfs"⟩]

/-- `str::as_bytes` -/
def asBytes (s : List Char) : List UInt8 := s.flatMap String.utf8EncodeChar

/-- What the router starts on, with the answers of the kernel. -/
structure Machine where
  pid : Pid
  mount : Mount → Bool
  env : List Char → Option (List Char)
  cmdline : Option (List Char)
  host : Host
  /-- Whether packet forwarding can be turned on. -/
  ipForward : Bool
  newConnection : Bool
  link : List Char → Option Nat
  up : Nat → Bool
  /-- For each of the two batches of the firewall. -/
  accepts : Bool × Bool
  ruleset : Ruleset

structure Booted where
  mounted : List Mount
  loader : LoaderState
  requests : List LinkRequest
  ruleset : Ruleset
  reboots : List RebootMode
  /-- The configuration the services were started with. -/
  services : Option RouterConfig

/-- What is mounted, and whether that is everything. -/
def mountVirtualFilesystems (mount : Mount → Bool) : List Mount → List Mount × Bool
  | [] => ([], true)
  | m :: rest =>
    if mount m then
      let others := mountVirtualFilesystems mount rest
      (m :: others.1, others.2)
    else ([], false)

variable (ipv6FromStr : List Char → Option Ipv6Addr) (lib : RuleMethods)

/-- The requests, and whether all goes well; the loopback interface need not. -/
def configureNetwork (m : Machine) (config : RouterConfig) : List LinkRequest × Bool :=
  if m.ipForward && m.newConnection then
    let configure name cidr := configureInterface ipv6FromStr (m.link name) ((m.link name).any m.up) cidr
    let lo := configure "lo".toList none
    let lan := configure config.lanInterface (some config.lanIp)
    if lan.2 then
      let wan := configure config.wanInterface none
      (lo.1 ++ lan.1 ++ wan.1, wan.2)
    else (lo.1 ++ lan.1, false)
  else ([], false)

/-- Up to where the tasks of the services are spawned. -/
def runAsInit (m : Machine) : Booted :=
  let config := RouterConfig.parse m.env m.cmdline
  if m.pid = 1 then
    let mounts := mountVirtualFilesystems m.mount virtualFilesystems
    if mounts.2 then
      let loader := loadRequiredModules m.host .initial
      let network := configureNetwork ipv6FromStr m config
      let firewall := configureFirewallOn lib m.accepts (asBytes config.wanInterface) (asBytes config.lanInterface) m.ruleset
      if firewall.2 then ⟨mounts.1, loader, network.1, firewall.1, [], some config⟩
      else ⟨mounts.1, loader, network.1, firewall.1, [.autoboot], none⟩
    else ⟨mounts.1, .initial, [], m.ruleset, [.autoboot], none⟩
  else ⟨[], .initial, [], m.ruleset, [], some config⟩

variable {ipv6FromStr lib} {m : Machine} {config : RouterConfig}

/-! ### The parts -/

theorem mount_all {mount : Mount → Bool} {mounts : List Mount} (h : ∀ m ∈ mounts, mount m = true) :
    mountVirtualFilesystems mount mounts = (mounts, true) := by
  induction mounts with
  | nil => rfl
  | cons first rest ih =>
    rw [List.forall_mem_cons] at h
    rw [mountVirtualFilesystems, if_pos h.1, ih h.2]

theorem mount_fails {mount : Mount → Bool} {mounts : List Mount} (h : ¬ ∀ m ∈ mounts, mount m = true) :
    (mountVirtualFilesystems mount mounts).2 = false := by
  induction mounts with
  | nil => exact absurd (by simp) h
  | cons first rest ih =>
    rw [mountVirtualFilesystems]
    by_cases hfirst : mount first = true
    · rw [if_pos hfirst]
      exact ih fun hrest => h (List.forall_mem_cons.mpr ⟨hfirst, hrest⟩)
    · rw [if_neg hfirst]

/-- No address is asked for without a setting, and with one only its own. -/
theorem configureInterface_address {link : Option Nat} {up : Bool} {cidr : Option (List Char)} {index : Nat} {ip : IpAddr}
    {pfx : UInt8} (h : .addAddress index ip pfx ∈ (configureInterface ipv6FromStr link up cidr).1) :
    link = some index ∧ ∃ text, cidr = some text ∧ readCidr ipv6FromStr text = some (ip, pfx) := by
  cases link with
  | none => simp [configureInterface] at h
  | some index' =>
    cases up with
    | false => simp [configureInterface] at h
    | true =>
      cases cidr with
      | none => simp [configureInterface] at h
      | some text =>
        cases hread : readCidr ipv6FromStr text with
        | none => simp [configureInterface, hread] at h
        | some read =>
          obtain ⟨ip', pfx'⟩ := read
          simp [configureInterface, hread] at h
          obtain ⟨rfl, rfl, rfl⟩ := h
          exact ⟨rfl, text, rfl, hread⟩

theorem configureNetwork_address {index : Nat} {ip : IpAddr} {pfx : UInt8}
    (h : .addAddress index ip pfx ∈ (configureNetwork ipv6FromStr m config).1) :
    m.link config.lanInterface = some index ∧ readCidr ipv6FromStr config.lanIp = some (ip, pfx) := by
  have hnone : ∀ name, .addAddress index ip pfx ∉
      (configureInterface ipv6FromStr (m.link name) ((m.link name).any m.up) none).1 := by
    intro name hmem
    obtain ⟨-, text, htext, -⟩ := configureInterface_address hmem
    exact absurd htext (by simp)
  have hlan : .addAddress index ip pfx ∈ (configureInterface ipv6FromStr (m.link config.lanInterface)
      ((m.link config.lanInterface).any m.up) (some config.lanIp)).1 := by
    unfold configureNetwork at h
    split at h
    · simp only at h
      split at h
      · simpa [hnone] using h
      · simpa [hnone] using h
    · simp at h
  obtain ⟨hlink, text, htext, hread⟩ := configureInterface_address hlan
  obtain rfl := Option.some.inj htext
  exact ⟨hlink, hread⟩

/-! ### The whole -/

/-- **Where there are services there is a firewall.** A router that starts as process 1, with
a configuration from the kernel's command line: its services start precisely if the kernel
has mounted every file system and taken the rules, and else it reboots. They start with the
settings of the command line. Then all file systems are mounted, the router lets in and
masquerades what it should for these settings, and the one address it has asked for is the
LAN's. -/
theorem boot_guarded (hpid : m.pid = 1) (hlib : lib.Documented) (hruleset : m.ruleset "rustyrouter" = none)
    (henv : EnvLacks m.env) {words : List (List Char)} {text : List Char} (hcmdline : m.cmdline = some text)
    (hwords : Spaced words text) :
    (((∀ mount ∈ virtualFilesystems, m.mount mount = true) ∧ m.accepts.2 = true) ↔
      (runAsInit ipv6FromStr lib m).services = some (configOf words)) ∧
    ((runAsInit ipv6FromStr lib m).services = none → (runAsInit ipv6FromStr lib m).reboots = [.autoboot]) ∧
    ∀ config, (runAsInit ipv6FromStr lib m).services = some config → config = configOf words ∧
      (runAsInit ipv6FromStr lib m).mounted = virtualFilesystems ∧ (runAsInit ipv6FromStr lib m).reboots = [] ∧
      (∀ p regs, ∃ v, (runAsInit ipv6FromStr lib m).ruleset.verdict "rustyrouter" "filter_input" p regs = some v ∧
        (v = .accept ↔ AdmittedAs p (asBytes config.wanInterface) (asBytes config.lanInterface))) ∧
      (∀ p out, p.oif = some out → ∀ regs,
        (runAsInit ipv6FromStr lib m).ruleset.masquerades "rustyrouter" "nat_postrouting" p regs ↔
          out.Is (asBytes config.wanInterface)) ∧
      ∀ index ip pfx, .addAddress index ip pfx ∈ (runAsInit ipv6FromStr lib m).requests →
        m.link config.lanInterface = some index ∧ readCidr ipv6FromStr config.lanIp = some (ip, pfx) := by
  have hparse : RouterConfig.parse m.env m.cmdline = configOf words := by
    rw [hcmdline]
    exact parse_spaced henv hwords
  let call : Netfilter.Setting := ⟨asBytes (configOf words).wanInterface, asBytes (configOf words).lanInterface⟩
  have hfirewall : configureFirewallOn lib m.accepts call.wanIface call.lanIface m.ruleset =
      (Function.update m.ruleset "rustyrouter" (kept lib (callsAfter m.accepts call [])), m.accepts.2) :=
    configureFirewallOn_eq lib hlib m.accepts call hruleset
  by_cases hmount : ∀ mount ∈ virtualFilesystems, m.mount mount = true
  · cases haccepts : m.accepts.2 with
    | false =>
      have hboot : (runAsInit ipv6FromStr lib m).services = none ∧ (runAsInit ipv6FromStr lib m).reboots = [.autoboot] := by
        simp only [runAsInit, hpid, if_true, mount_all hmount, hparse]
        simp only [call, haccepts] at hfirewall
        simp [hfirewall]
      refine ⟨by simp [hboot.1], fun _ => hboot.2, fun config hconfig => ?_⟩
      exact absurd (hboot.1.symm.trans hconfig) (by simp)
    | true =>
      have hboot : runAsInit ipv6FromStr lib m = ⟨virtualFilesystems, loadRequiredModules m.host .initial,
          (configureNetwork ipv6FromStr m (configOf words)).1,
          Function.update m.ruleset "rustyrouter" (kept lib (callsAfter m.accepts call [])), [], some (configOf words)⟩ := by
        simp only [runAsInit, hpid, if_true, mount_all hmount, hparse]
        simp only [call, haccepts] at hfirewall
        simp [hfirewall, call]
      have hcalls : callsAfter m.accepts call [] = [call] := by
        simp [callsAfter, haccepts]
      rw [hboot, hcalls]
      refine ⟨iff_of_true ⟨hmount, rfl⟩ rfl, by simp, fun config hconfig => ?_⟩
      obtain rfl := Option.some.inj hconfig
      have hkept : (Function.update m.ruleset "rustyrouter" (kept lib [call])) "rustyrouter" = kept lib [call] :=
        Function.update_self ..
      refine ⟨rfl, rfl, rfl, fun p regs => ?_, fun p out hout regs => ?_, fun index ip pfx => configureNetwork_address⟩
      · obtain ⟨v, hv, haccept⟩ := built_verdict hlib hkept (by simp) p regs
        exact ⟨v, hv, haccept.trans (by simp [call])⟩
      · exact (built_masquerades hkept hout regs).trans (by simp [call])
  · have hboot : (runAsInit ipv6FromStr lib m).services = none ∧ (runAsInit ipv6FromStr lib m).reboots = [.autoboot] := by
      simp [runAsInit, hpid, mount_fails hmount]
    refine ⟨by simp [hmount, hboot.1], fun _ => hboot.2, fun config hconfig => ?_⟩
    exact absurd (hboot.1.symm.trans hconfig) (by simp)

/-! ### A quiet start -/

/-- Everything goes well, but that there is no table to delete; the command line sets the
address of the LAN, and leaves the names to their defaults. -/
def quiet : Machine where
  pid := 1
  mount _ := true
  env _ := none
  cmdline := some "console=ttyS0 rustyrouter.lan_ip=10.0.0.1/24  quiet\n".toList
  host := ⟨[], fun _ => none, [], fun _ _ => true⟩
  ipForward := true
  newConnection := true
  link _ := some 2
  up _ := true
  accepts := (false, true)
  ruleset _ := none

/-- It routes from `eth1` to `eth0`. -/
theorem boot_guarded_quiet : (runAsInit (fun _ => none) protocolMethods quiet).services =
      some ⟨"eth0".toList, "eth1".toList, "10.0.0.1/24".toList⟩ ∧
    ∀ p out, p.oif = some out → ∀ regs,
      (runAsInit (fun _ => none) protocolMethods quiet).ruleset.masquerades "rustyrouter" "nat_postrouting" p regs ↔
        out = eth0 := by
  have hwords : Spaced ["console=ttyS0".toList, "rustyrouter.lan_ip=10.0.0.1/24".toList, "quiet".toList]
      "console=ttyS0 rustyrouter.lan_ip=10.0.0.1/24  quiet\n".toList :=
    splitWhitespace_eq_iff.mp (by decide +kernel)
  have hconfig : configOf ["console=ttyS0".toList, "rustyrouter.lan_ip=10.0.0.1/24".toList, "quiet".toList] =
      ⟨"eth0".toList, "eth1".toList, "10.0.0.1/24".toList⟩ := by
    decide +kernel
  obtain ⟨hstarts, -, hservices⟩ := @boot_guarded (fun _ => none) protocolMethods quiet rfl protocolMethods_documented rfl
    (.inl rfl) _ _ rfl hwords
  have hrun := hstarts.mp ⟨fun _ _ => rfl, rfl⟩
  obtain ⟨-, -, -, -, hmasq, -⟩ := hservices _ hrun
  refine ⟨by rw [hrun, hconfig], fun p out hout regs => (hmasq p out hout regs).trans ?_⟩
  have hname : asBytes "eth0".toList = eth0.bytes := by decide +kernel
  rw [hconfig, hname, ifName_is_iff]

end RustyRouter.Init
