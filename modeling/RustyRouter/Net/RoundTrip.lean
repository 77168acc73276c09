import RustyRouter.Net.Frame

/-! Messages on the wire and back.

The crate documents that a message decodes to what was encoded; `RoundTrips` says so for
the messages this program makes: options with a known code, under that code, short enough
for the length byte. The standard layout has this property (`Wire.dhcproto_roundTrips`). -/
namespace RustyRouter

/-! ### The property -/

/-- An option with a code of its own and at most 255 bytes of data. -/
def DhcpOption.Plain : DhcpOption → Prop
  | .router routers => routers ≠ [] ∧ routers.length ≤ 63
  | .domainNameServer servers => servers ≠ [] ∧ servers.length ≤ 63
  | .messageType mtype => ∀ code, mtype ≠ .unknown code
  | .parameterRequestList codes => codes.length ≤ 255 ∧ ∀ code ∈ codes, ∀ c, code ≠ .unknown c
  | .unknown _ _ => False
  | .subnetMask _ | .requestedIpAddress _ | .addressLeaseTime _ | .serverIdentifier _ => True

/-- A message with such options only, each under its own code. -/
structure Message.Plain (m : Message) : Prop where
  opcode : ∀ code, m.opcode ≠ .unknown code
  keyed : ∀ code option, m.opts.get code = some option → option.code = code
  options : ∀ code option, m.opts.get code = some option → option.Plain

/-- The same message, as far as anybody can tell who looks options up by their code. -/
structure Message.Same (m m' : Message) : Prop where
  opcode : m.opcode = m'.opcode
  hlen : m.hlen = m'.hlen
  xid : m.xid = m'.xid
  flags : m.flags = m'.flags
  ciaddr : m.ciaddr = m'.ciaddr
  yiaddr : m.yiaddr = m'.yiaddr
  siaddr : m.siaddr = m'.siaddr
  giaddr : m.giaddr = m'.giaddr
  chaddrField : m.chaddrField = m'.chaddrField
  opts : ∀ code, m.opts.get code = m'.opts.get code

/-- A plain message encodes, and decodes to the same. -/
def Dhcproto.RoundTrips (dhcproto : Dhcproto) : Prop :=
  ∀ m : Message, m.Plain → ∃ bytes, dhcproto.encode m = .ok bytes ∧
    ∃ m', dhcproto.decode bytes = some m' ∧ m'.Same m

theorem Message.Same.chaddr {m m' : Message} (h : m.Same m') : m.chaddr = m'.chaddr := by
  simp only [Message.chaddr, h.chaddrField, h.hlen]

theorem Message.Same.messageType {m m' : Message} (h : m.Same m') : m.messageType = m'.messageType := by
  simp only [Message.messageType, h.opts]

/-! ### Plain messages -/

theorem Message.get_withOption (m : Message) (option : DhcpOption) (code : OptionCode) :
    (m.withOption option).opts.get code = if code = option.code then some option else m.opts.get code :=
  Store.HashMap.get_insert m.opts option.code code option

theorem Message.Plain.withOption {m : Message} (h : m.Plain) {option : DhcpOption} (hoption : option.Plain) :
    (m.withOption option).Plain where
  opcode := h.opcode
  keyed code o hget := by
    rw [Message.get_withOption] at hget
    split at hget
    · obtain rfl := Option.some.inj hget
      exact Eq.symm ‹_›
    · exact h.keyed code o hget
  options code o hget := by
    rw [Message.get_withOption] at hget
    split at hget
    · obtain rfl := Option.some.inj hget
      exact hoption
    · exact h.options code o hget

theorem Message.plain_of_empty {m : Message} (hop : ∀ code, m.opcode ≠ .unknown code)
    (hopts : m.opts = Store.HashMap.empty) : m.Plain where
  opcode := hop
  keyed code option hget := absurd hget (by simp [hopts])
  options code option hget := absurd hget (by simp [hopts])

namespace Wire

/-! ### Numbers -/

/-- Four bytes side by side. -/
theorem or_bytes {a b c d : Nat} (hb : b < 256) (hc : c < 256) (hd : d < 256) :
    a <<< 24 ||| b <<< 16 ||| c <<< 8 ||| d = 16777216 * a + 65536 * b + 256 * c + d := by
  have hab : a <<< 24 ||| b <<< 16 = (256 * a + b) <<< 16 := by
    rw [← Nat.shiftLeft_add_eq_or_of_lt (by rw [Nat.shiftLeft_eq]; omega), Nat.shiftLeft_eq, Nat.shiftLeft_eq,
      Nat.shiftLeft_eq]
    omega
  have habc : (256 * a + b) <<< 16 ||| c <<< 8 = (65536 * a + 256 * b + c) <<< 8 := by
    rw [← Nat.shiftLeft_add_eq_or_of_lt (by rw [Nat.shiftLeft_eq]; omega), Nat.shiftLeft_eq, Nat.shiftLeft_eq,
      Nat.shiftLeft_eq]
    omega
  rw [hab, habc, ← Nat.shiftLeft_add_eq_or_of_lt (by omega : d < 2 ^ 8), Nat.shiftLeft_eq]
  omega

theorem toNat_be32 (a b c d : UInt8) :
    (be32 a b c d).toNat = 16777216 * a.toNat + 65536 * b.toNat + 256 * c.toNat + d.toNat := by
  have ha := a.toNat_lt
  have hb := b.toNat_lt
  have hc := c.toNat_lt
  rw [← or_bytes b.toNat_lt c.toNat_lt d.toNat_lt]
  simp only [be32, UInt32.toNat_or, UInt32.toNat_shiftLeft, UInt8.toNat_toUInt32]
  show a.toNat <<< 24 % 2 ^ 32 ||| b.toNat <<< 16 % 2 ^ 32 ||| c.toNat <<< 8 % 2 ^ 32 ||| d.toNat = _
  rw [Nat.mod_eq_of_lt (by rw [Nat.shiftLeft_eq]; omega), Nat.mod_eq_of_lt (by rw [Nat.shiftLeft_eq]; omega),
    Nat.mod_eq_of_lt (by rw [Nat.shiftLeft_eq]; omega)]

theorem be32_bytes (x : UInt32) :
    be32 (x >>> 24).toUInt8 (x >>> 16).toUInt8 (x >>> 8).toUInt8 x.toUInt8 = x := by
  have hx := x.toNat_lt
  apply UInt32.toNat_inj.mp
  simp only [toNat_be32, UInt32.toNat_toUInt8, UInt32.toNat_shiftRight, Nat.shiftRight_eq_div_pow]
  show 16777216 * (x.toNat / 2 ^ 24 % 256) + 65536 * (x.toNat / 2 ^ 16 % 256) +
    256 * (x.toNat / 2 ^ 8 % 256) + x.toNat % 256 = x.toNat
  omega

theorem new_eq_be32 (a b c d : UInt8) : Ipv4Addr.new a b c d = (be32 a b c d).toBitVec := by
  apply BitVec.eq_of_toNat_eq
  show _ = (be32 a b c d).toNat
  rw [toNat_be32, ← or_bytes b.toNat_lt c.toNat_lt d.toNat_lt]
  simp only [Ipv4Addr.new, BitVec.toNat_append, UInt8.toNat_toBitVec, Nat.shiftLeft_or_distrib,
    ← Nat.shiftLeft_add]

theorem new_bytes (ip : Ipv4Addr) :
    Ipv4Addr.new ((⟨ip⟩ : UInt32) >>> 24).toUInt8 ((⟨ip⟩ : UInt32) >>> 16).toUInt8
      ((⟨ip⟩ : UInt32) >>> 8).toUInt8 (⟨ip⟩ : UInt32).toUInt8 = ip := by
  rw [new_eq_be32, be32_bytes]

/-! ### Options -/

theorem addresses_bytes (ips : List Ipv4Addr) : addresses (ips.flatMap bytesOfIp) = some ips := by
  induction ips with
  | nil => rfl
  | cons ip ips ih =>
    show (addresses (ips.flatMap bytesOfIp)).map (Ipv4Addr.new _ _ _ _ :: ·) = _
    rw [ih, new_bytes]
    rfl

theorem length_bytes (ips : List Ipv4Addr) : (ips.flatMap bytesOfIp).length = 4 * ips.length := by
  induction ips with
  | nil => rfl
  | cons ip ips ih =>
    rw [List.flatMap_cons, List.length_append, ih, List.length_cons]
    show 4 + 4 * ips.length = 4 * (ips.length + 1)
    omega

theorem optionCodeOf_byte {code : OptionCode} (h : ∀ c, code ≠ .unknown c) :
    optionCodeOf (byteOfOptionCode code) = code := by
  cases code with
  | unknown c => exact absurd rfl (h c)
  | _ => rfl

theorem messageTypeOf_code {mtype : MessageType} (h : ∀ code, mtype ≠ .unknown code) :
    messageTypeOf (codeOfMessageType mtype) = mtype := by
  cases mtype with
  | unknown code => exact absurd rfl (h code)
  | _ => rfl

theorem map_optionCodeOf {codes : List OptionCode} (h : ∀ code ∈ codes, ∀ c, code ≠ .unknown c) :
    (codes.map byteOfOptionCode).map optionCodeOf = codes := by
  induction codes with
  | nil => rfl
  | cons code codes ih =>
    rw [List.map_cons, List.map_cons, optionCodeOf_byte (h code List.mem_cons_self),
      ih fun c hc => h c (List.mem_cons_of_mem code hc)]

/-- The data of a plain option reads back. -/
theorem optionOf_data {option : DhcpOption} (h : option.Plain) :
    optionOf (byteOfOptionCode option.code) (optionData option) = some option := by
  cases option with
  | subnetMask mask => exact congrArg (fun ip => some (DhcpOption.subnetMask ip)) (new_bytes mask)
  | router routers => exact congrArg (Option.map DhcpOption.router) (addresses_bytes routers)
  | domainNameServer servers =>
    exact congrArg (Option.map DhcpOption.domainNameServer) (addresses_bytes servers)
  | requestedIpAddress ip => exact congrArg (fun ip => some (DhcpOption.requestedIpAddress ip)) (new_bytes ip)
  | addressLeaseTime secs =>
    exact congrArg (fun secs => some (DhcpOption.addressLeaseTime secs)) (be32_bytes secs)
  | messageType mtype =>
    exact congrArg (fun mtype => some (DhcpOption.messageType mtype)) (messageTypeOf_code h)
  | serverIdentifier ip => exact congrArg (fun ip => some (DhcpOption.serverIdentifier ip)) (new_bytes ip)
  | parameterRequestList codes =>
    exact congrArg (fun codes => some (DhcpOption.parameterRequestList codes)) (map_optionCodeOf h.2)
  | unknown code data => exact absurd h id

theorem length_optionData {option : DhcpOption} (h : option.Plain) : (optionData option).length < 256 := by
  cases option with
  | router routers =>
    rw [optionData, length_bytes]
    have hle : routers.length ≤ 63 := h.2
    omega
  | domainNameServer servers =>
    rw [optionData, length_bytes]
    have hle : servers.length ≤ 63 := h.2
    omega
  | parameterRequestList codes =>
    rw [optionData, List.length_map]
    exact Nat.lt_succ_of_le h.1
  | unknown code data => exact absurd h id
  | _ => simp [optionData, bytesOfIp, bytes32]

theorem byteOfOptionCode_code {option : DhcpOption} (h : option.Plain) :
    byteOfOptionCode option.code ≠ 0 ∧ byteOfOptionCode option.code ≠ 255 := by
  cases option with
  | unknown code data => exact absurd h id
  | _ => simp [DhcpOption.code, byteOfOptionCode]

/-- One option in the layout. -/
def optionBytes (option : DhcpOption) : List UInt8 :=
  byteOfOptionCode option.code :: UInt8.ofNat (optionData option).length :: optionData option

theorem options_step {option : DhcpOption} (h : option.Plain) (fuel : Nat) (rest : List UInt8)
    (opts : DhcpOptions) :
    options (fuel + 1) (optionBytes option ++ rest) opts = options fuel rest (insertOption opts option) := by
  obtain ⟨hzero, hend⟩ := byteOfOptionCode_code h
  have hlen : (UInt8.ofNat (optionData option).length).toNat = (optionData option).length := by
    rw [UInt8.toNat_ofNat']
    exact Nat.mod_eq_of_lt (length_optionData h)
  rw [optionBytes, List.cons_append, List.cons_append, options]
  · rw [hlen, if_neg (by rw [List.length_append]; omega), List.take_left' rfl, List.drop_left' rfl,
      optionOf_data h]
    rfl
  · exact hzero
  · exact hend

/-- The options of a list, one after another. -/
theorem options_bytes {list : List DhcpOption} (h : ∀ option ∈ list, option.Plain) {fuel : Nat}
    (hfuel : list.length < fuel) (opts : DhcpOptions) :
    options fuel (list.flatMap optionBytes ++ [255]) opts = some (list.foldl insertOption opts) := by
  induction list generalizing fuel opts with
  | nil =>
    obtain ⟨fuel, rfl⟩ := Nat.exists_eq_succ_of_ne_zero (Nat.ne_of_gt hfuel)
    rfl
  | cons option list ih =>
    obtain ⟨fuel, rfl⟩ := Nat.exists_eq_succ_of_ne_zero (Nat.ne_of_gt (Nat.lt_of_le_of_lt (Nat.zero_le _) hfuel))
    rw [List.flatMap_cons, List.append_assoc, options_step (h option List.mem_cons_self),
      ih (fun o ho => h o (List.mem_cons_of_mem option ho)) (Nat.lt_of_succ_lt_succ hfuel)]
    rfl

/-- Inserting the values of a map again, each under its code, gives the map. -/
theorem get_foldl_insertOption {entries : List (Sigma fun _ : OptionCode => DhcpOption)}
    (hkeyed : ∀ entry ∈ entries, entry.2.code = entry.1) (hnodup : entries.NodupKeys) (opts : DhcpOptions)
    (code : OptionCode) :
    ((entries.map Sigma.snd).foldl insertOption opts).get code =
      (List.dlookup code entries).or (opts.get code) := by
  induction entries generalizing opts with
  | nil => rfl
  | cons entry entries ih =>
    obtain ⟨key, option⟩ := entry
    obtain ⟨hnot, hrest⟩ := List.nodupKeys_cons.mp hnodup
    have hcode : option.code = key := hkeyed ⟨key, option⟩ List.mem_cons_self
    rw [List.map_cons, List.foldl_cons, ih (fun e he => hkeyed e (List.mem_cons_of_mem _ he)) hrest,
      insertOption, hcode, Store.HashMap.get_insert]
    by_cases h : code = key
    · subst h
      rw [if_pos rfl, List.dlookup_eq_none.mpr hnot, List.dlookup_cons_eq]
      rfl
    · rw [if_neg h, List.dlookup_cons_ne entries ⟨key, option⟩ h]

theorem get_foldl_values {m : Message} (h : m.Plain) (code : OptionCode) :
    (m.opts.values.foldl insertOption Store.HashMap.empty).get code = m.opts.get code := by
  have hkeyed : ∀ entry ∈ m.opts.entries, entry.2.code = entry.1 := by
    intro entry hentry
    exact h.keyed entry.1 entry.2 (Store.HashMap.get_eq_some_iff.mpr hentry)
  rw [Store.HashMap.values, get_foldl_insertOption hkeyed m.opts.nodupKeys, Store.HashMap.get_empty,
    Option.or_none]
  rfl

/-! ### Messages -/

theorem opcodeOf_byte {opcode : Opcode} (h : ∀ code, opcode ≠ .unknown code) :
    opcodeOf (byteOfOpcode opcode) = opcode := by
  cases opcode with
  | unknown code => exact absurd rfl (h code)
  | _ => rfl

/-- What comes after the addresses. -/
def encodeRest (m : Message) : List UInt8 :=
  m.chaddrField.toList ++ List.replicate 192 0 ++ [99, 130, 83, 99] ++
    (m.opts.values.flatMap optionBytes ++ [255])

theorem length_le_flatMap (list : List DhcpOption) : list.length ≤ (list.flatMap optionBytes).length := by
  induction list with
  | nil => exact Nat.le_refl 0
  | cons option list ih =>
    rw [List.flatMap_cons, List.length_append, List.length_cons, optionBytes, List.length_cons]
    omega

theorem length_encodeRest (m : Message) :
    (encodeRest m).length = 212 + (m.opts.values.flatMap optionBytes).length + 1 := by
  simp only [encodeRest, List.length_append, List.length_replicate, Vector.length_toList, List.length_cons,
    List.length_nil]
  omega

theorem take_encodeRest (m : Message) : (encodeRest m).take 16 = m.chaddrField.toList := by
  simp only [encodeRest, List.append_assoc]
  rw [List.take_left' (Vector.length_toList)]

theorem drop_encodeRest (m : Message) :
    (encodeRest m).drop (208 + 4) = m.opts.values.flatMap optionBytes ++ [255] := by
  rw [encodeRest, List.drop_left']
  simp only [List.length_append, List.length_replicate, Vector.length_toList, List.length_cons, List.length_nil]

theorem options_encodeRest {m : Message} (h : m.Plain) :
    options (encodeRest m).length ((encodeRest m).drop (208 + 4)) Store.HashMap.empty =
      some (m.opts.values.foldl insertOption Store.HashMap.empty) := by
  rw [drop_encodeRest]
  apply options_bytes
  · intro option hoption
    obtain ⟨code, hget⟩ := Store.HashMap.mem_values.mp hoption
    exact h.options code option hget
  · have hle := length_le_flatMap m.opts.values
    rw [length_encodeRest]
    omega

theorem encode_eq (m : Message) : encode m =
    [byteOfOpcode m.opcode, 1, m.hlen, 0] ++ bytes32 m.xid ++ [0, 0] ++ bytes16 m.flags ++
      bytesOfIp m.ciaddr ++ bytesOfIp m.yiaddr ++ bytesOfIp m.siaddr ++ bytesOfIp m.giaddr ++ encodeRest m := by
  simp only [encode, encodeRest, List.append_assoc]
  rfl

theorem length_encode (m : Message) :
    (encode m).length = 241 + (m.opts.values.flatMap optionBytes).length := by
  simp only [encode_eq, List.length_append, length_encodeRest, bytesOfIp, bytes32, bytes16, List.length_cons,
    List.length_nil]
  omega

theorem decode_encode {m : Message} (h : m.Plain) : ∃ m', decode (encode m) = some m' ∧ m'.Same m := by
  have hlen : 208 + 4 ≤ (encodeRest m).length := by
    rw [length_encodeRest]
    omega
  rw [encode_eq]
  show ∃ m', (if h : 208 + 4 ≤ (encodeRest m).length then _ else none) = some m' ∧ _
  have hnil : List.append [] (encodeRest m) = encodeRest m := rfl
  simp only [dif_pos hlen, hnil, options_encodeRest h]
  refine ⟨_, rfl, ?_⟩
  exact {
    opcode := opcodeOf_byte h.opcode
    hlen := rfl
    xid := be32_bytes m.xid
    flags := be16_bytes m.flags
    ciaddr := new_bytes m.ciaddr
    yiaddr := new_bytes m.yiaddr
    siaddr := new_bytes m.siaddr
    giaddr := new_bytes m.giaddr
    chaddrField := by
      apply Vector.toList_inj.mp
      exact take_encodeRest m
    opts := get_foldl_values h }

theorem dhcproto_roundTrips : dhcproto.RoundTrips := by
  intro m hm
  have hencode : dhcproto.encode m = .ok (encode m) := rfl
  have hdecode : dhcproto.decode = decode := rfl
  refine ⟨encode m, hencode, ?_⟩
  rw [hdecode]
  exact decode_encode hm

end Wire

end RustyRouter
