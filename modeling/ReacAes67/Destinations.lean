import ReacAes67.DanteDelivery

set_option autoImplicit false

/-!
# Announced and actual destinations

A receiver joins the group and the port that a description names. A session's
name and origin stand before both and may contain anything, so the receiver
takes the last line of each kind.
-/

namespace ReacAes67

open BoundedPrint Handles TextLines

structure DestinationFields where
  connection : Option (List Char × Int)
  media : Option (Int × Int)

structure Destination where
  group : List Char
  port : Int
  ttl : Int
deriving DecidableEq, Repr

def readDestination (f : DestinationFields) (line : List Char) : DestinationFields :=
  { connection := (parseConnection line).or f.connection
    media := (parseMedia line).or f.media }

def announcedDestination (text : List Char) : Option Destination := do
  let f := scan readDestination ⟨none, none⟩ text
  let (group, ttl) ← f.connection
  let (port, _) ← f.media
  some ⟨group, port, ttl⟩

section Lines

variable (f : DestinationFields)

theorem readDestination_empty : readDestination f [] = f := rfl

theorem readDestination_time : readDestination f "t=0 0".toList = f := rfl

-- No attribute says where the stream goes.
theorem readDestination_attribute (text : List Char) : readDestination f ('a' :: text) = f := rfl

theorem readDestination_connection {group : List Char} (slash : '/' ∉ group) (ttl : Int) :
    readDestination f ("c=IN IP4 ".toList ++ group ++ "/".toList ++ decimal ttl) =
      { f with connection := some (group, ttl) } := by
  rw [readDestination, parseConnection_line slash]
  rfl

theorem readDestination_media (p : SdpParams) :
    readDestination f (mediaLine p) = { f with media := some (p.mcastPort, p.payloadType) } := by
  rw [readDestination, parseMedia_mediaLine]
  rfl

theorem scan_attribute (text : List Char) (unbroken : Unbroken text) :
    scan readDestination f ('a' :: text) = f := by
  have line : Unbroken ('a' :: text) := List.forall_mem_cons.mpr ⟨by decide, unbroken⟩
  rw [scan_line _ _ line, readDestination_attribute]

theorem scan_tailLines {p : SdpParams} (clock : ∀ clock ∈ p.tsRefclk, Unbroken clock) :
    (tailLines p).foldl (scan readDestination) f = f := by
  have recvonly := scan_attribute f "=recvonly".toList (literal_unbroken _ (by decide))
  cases text : p.tsRefclk with
  | none => simpa [tailLines, text] using recvonly
  | some refclk =>
    have first := scan_attribute f ("=ts-refclk:ptp=IEEE1588-2008:".toList ++ refclk)
      ((literal_unbroken _ (by decide)).append (clock refclk text))
    have second := scan_attribute f ("=mediaclk:direct=".toList ++ decimal p.mediaclkDirect)
      ((literal_unbroken _ (by decide)).append (decimal_unbroken _))
    have lines : tailLines p = ["a=ts-refclk:ptp=IEEE1588-2008:".toList ++ refclk,
        "a=mediaclk:direct=".toList ++ decimal p.mediaclkDirect, "a=recvonly".toList] := by
      rw [tailLines, text]
    rw [lines, List.foldl_cons, List.foldl_cons, List.foldl_cons, List.foldl_nil]
    exact (congrArg (fun f => scan readDestination (scan readDestination f _) _) first).trans
      ((congrArg (scan readDestination · _) second).trans recvonly)

end Lines

/-- Whatever the names are, a description names the destination it was built for. -/
theorem announcedDestination_sdpText {p : SdpParams} (group : Unbroken p.mcastIp) (slash : '/' ∉ p.mcastIp)
    (clock : ∀ clock ∈ p.tsRefclk, Unbroken clock) :
    announcedDestination (sdpText p) = some ⟨p.mcastIp, p.mcastPort, p.ttl⟩ := by
  have connection (f : DestinationFields) :
      scan readDestination f ("c=IN IP4 ".toList ++ p.mcastIp ++ "/".toList ++ decimal p.ttl) =
        { f with connection := some (p.mcastIp, p.ttl) } := by
    rw [scan_line _ _ ((((literal_unbroken _ (by decide)).append group).append
      (literal_unbroken _ (by decide))).append (decimal_unbroken _)), readDestination_connection f slash]
  have time (f : DestinationFields) : scan readDestination f "t=0 0".toList = f := by
    rw [scan_line _ _ (literal_unbroken _ (by decide)), readDestination_time]
  have media (f : DestinationFields) : scan readDestination f (mediaLine p) =
      { f with media := some (p.mcastPort, p.payloadType) } := by
    rw [scan_line _ _ (mediaLine_graphic p).unbroken, readDestination_media]
  have rtpmap (f : DestinationFields) : scan readDestination f (rtpmapLine p) = f := by
    rw [scan_line _ _ (rtpmapLine_graphic p).unbroken]
    rfl
  have ptime (f : DestinationFields) : scan readDestination f (ptimeLine p) = f := by
    rw [scan_line _ _ (ptimeLine_graphic p).unbroken]
    rfl
  rw [announcedDestination, sdpText_flatMap, scan_flatMap _ readDestination_empty, sdpLines, List.foldl_append,
    scan_tailLines _ clock]
  simp only [List.foldl_cons, List.foldl_nil, connection, time, media, rtpmap, ptime]
  rfl

-- The names of a description are C strings if what they are made of are.
theorem sdpText_strings {p : SdpParams} (name : CString p.sessionName) (origin : CString p.originIp)
    (group : CString p.mcastIp) (clock : ∀ clock ∈ p.tsRefclk, CString clock) : CString (sdpText p) := by
  have tail : ∀ line ∈ tailLines p, CString line := by
    cases text : p.tsRefclk with
    | none => simpa [tailLines, text] using literal_cString "a=recvonly".toList (by decide)
    | some refclk =>
      simp only [tailLines, text, List.forall_mem_cons]
      exact ⟨(literal_cString _ (by decide)).append (clock refclk text),
        (literal_cString _ (by decide)).append (graphic_cString (decimal_graphic _)),
        literal_cString _ (by decide), by simp⟩
  rw [sdpText_flatMap]
  apply cString_flatMap
  simp only [sdpLines, List.cons_append, List.nil_append, List.forall_mem_cons]
  exact ⟨literal_cString _ (by decide), (literal_cString _ (by decide)).append origin,
    (literal_cString _ (by decide)).append name,
    (((literal_cString _ (by decide)).append group).append (literal_cString _ (by decide))).append
      (graphic_cString (decimal_graphic _)),
    literal_cString _ (by decide), graphic_cString (mediaLine_graphic p),
    graphic_cString (rtpmapLine_graphic p), graphic_cString (ptimeLine_graphic p), tail⟩

/-- The texts of the command line that reach a Dante description. -/
structure Options.Strings (o : Options) : Prop where
  name : CString (announcedName o)
  origin : CString o.origin
  gmid : CString o.gmid

section Group

variable (a b c : UInt32)

theorem flowGroup_graphic (last : Nat) : Graphic (flowGroup a b c last) := by
  have dot : Graphic ['.'] := literal_graphic _ (by decide)
  unfold flowGroup groupStem
  exact ((((((decimal_graphic _).append dot).append (decimal_graphic _)).append dot).append
    (decimal_graphic _)).append dot).append (decimal_graphic _)

theorem flowGroup_slash (last : Nat) : '/' ∉ flowGroup a b c last := by
  have number (n : Nat) : '/' ∉ decimal n := fun member =>
    absurd (Nat.isDigit_of_mem_toDigits (by decide) (by decide) member) (by decide)
  simp [flowGroup, groupStem, number]

theorem flowGroup_injective {m n : Nat} (same : flowGroup a b c m = flowGroup a b c n) : m = n := by
  have last : decimal (m : Int) = decimal (n : Int) := List.append_cancel_left same
  have read := readNat_last m
  rw [last, readNat_last] at read
  exact (Prod.mk.inj (Option.some.inj read)).1.symm

end Group

section Dante

variable {host : Host} {o : Options} {cfg : DanteLaunch} {env : Surroundings} {run : DanteRun}
  {flows : List ReacFlow} {i : Nat} {sap : SapPacket}

theorem danteFlows_few (modes : host.LibreacModes) (opened : danteFlows host o = some flows) :
    flows.length ≤ 40 := by
  obtain ⟨n, accepted, built⟩ := danteFlows_built opened
  obtain ⟨rate, _, mode⟩ := modes.known (if o.profileDante then 48000 else o.rate)
  rw [Options.mode, mode] at built
  obtain ⟨positive, rfl⟩ := danteBuildFlows_table accepted built
  rw [danteTable_length]
  exact flowCount_le (by omega)

-- The flows of one process count up from one base address.
theorem danteFlows_groups (modes : host.LibreacModes) (opened : danteFlows host o = some flows) :
    ∃ a b c d, ∀ i < flows.length, ipv4AddOctet o.aes67Base i = some (flowGroup a b c (d + i)) := by
  have few := danteFlows_few modes opened
  have addressed (i : Nat) (inside : i < flows.length) : ∃ fip, ipv4AddOctet o.aes67Base i = some fip := by
    have own := List.all_eq_true.mp (danteFlows_opened opened) i (List.mem_range.mpr inside)
    unfold danteFlowOpen at own
    split at own
    next fip address => exact ⟨fip, address⟩
    next => cases own
  cases scanned : scanIpv4 o.aes67Base with
  | none =>
    refine ⟨0, 0, 0, 0, fun i inside => ?_⟩
    obtain ⟨fip, address⟩ := addressed i inside
    simp [ipv4AddOctet, scanned] at address
  | some octets =>
    obtain ⟨a, b, c, d⟩ := octets
    refine ⟨a, b, c, d.toNat, fun i inside => ?_⟩
    obtain ⟨fip, address⟩ := addressed i inside
    obtain ⟨a', b', c', d', scanned', _, _, rfl⟩ := ipv4AddOctet_stem (by omega) address
    obtain ⟨rfl, rfl, rfl, rfl⟩ : a = a' ∧ b = b' ∧ c = c' ∧ d = d' := by
      simpa [scanned] using scanned'
    exact address

theorem flowSender_address {fip : List Char} (address : ipv4AddOctet o.aes67Base i = some fip) :
    flowSender o cfg i =
      .sender fip o.rtpPort (multicastTtl o.ttl) (cfg.egress.filter fun name => !name.isEmpty) := by
  rw [flowSender, aes67Sender, address]
  rfl

-- The packet of a flow, from the group that its socket sends to.
theorem danteAnnouncement_flow (modes : host.LibreacModes) (opened : danteFlows host o = some flows)
    (inside : i < flows.length) (made : danteAnnouncement host o i = some sap) :
    ∃ fip addr, ipv4AddOctet o.aes67Base i = some fip ∧ Graphic fip ∧ '/' ∉ fip ∧
      sap.header = sapHeader addr (sapHash sap.sdp) ∧
      sdpBuild 768 (danteFlowSdp host o i flows[i] fip) = some sap.sdp := by
  have few := danteFlows_few modes opened
  simp only [danteAnnouncement, opened, Option.bind_eq_bind, Option.bind_some,
    List.getElem?_eq_getElem inside] at made
  split at made
  next =>
    simp only [Option.bind_eq_some_iff] at made
    obtain ⟨fip, address, sdp, built, wrapped⟩ := made
    obtain ⟨a, b, c, d, _, _, _, rfl⟩ := ipv4AddOctet_stem (by omega) address
    have same := sapBuild_sdp wrapped
    simp only [sapBuild, Option.bind_eq_bind, Option.bind_eq_some_iff] at wrapped
    obtain ⟨addr, _, wrapped⟩ := wrapped
    split at wrapped
    next => cases wrapped
    next =>
      obtain rfl := Option.some.inj wrapped
      exact ⟨_, addr, address, flowGroup_graphic a b c _, flowGroup_slash a b c _, rfl, built⟩
  next => cases made

theorem flowSdp_strings (strings : o.Strings) (fl : ReacFlow) {fip : List Char} (group : Graphic fip) :
    CString (sdpText (danteFlowSdp host o i fl fip)) := by
  have take {text : List Char} (string : CString text) (n : Nat) : CString (text.take n) :=
    fun c member => string c (List.mem_of_mem_take member)
  have literal (c : Char) (graphic : Graphic [c]) : CString [c] := graphic_cString graphic
  have name : CString (announcedName o ++ ['-'] ++ decimal (i + 1)) :=
    (strings.name.append (literal '-' (literal_graphic _ (by decide)))).append
      (graphic_cString (decimal_graphic _))
  have clock : CString (o.gmid ++ [':'] ++ decimal o.ptpDomain) :=
    (strings.gmid.append (literal ':' (literal_graphic _ (by decide)))).append
      (graphic_cString (decimal_graphic _))
  refine sdpText_strings (take name 63) strings.origin (graphic_cString group) ?_
  rintro text ⟨rfl⟩
  exact take clock 79

/-- What goes out on the announcing socket parses to the description it was built from. -/
theorem danteAnnouncement_heard (modes : host.LibreacModes) (strings : o.Strings)
    (opened : danteFlows host o = some flows) (inside : i < flows.length)
    (made : danteAnnouncement host o i = some sap) :
    ∃ addr hash, parseSap sap.bytes = some ⟨addr, hash, sap.sdp⟩ := by
  obtain ⟨fip, addr, _, group, _, header, built⟩ := danteAnnouncement_flow modes opened inside made
  have string : CString sap.sdp := (sdpBuild_eq_some.mp built).2.2 ▸ flowSdp_strings strings _ group
  exact ⟨addr, _, by rw [SapPacket.bytes, header, parseSap_header, map_charByte string]⟩

-- The clock stands behind the lines that name a destination, and must not begin another one.
theorem danteAnnouncement_destination (modes : host.LibreacModes) (clock : Unbroken o.gmid)
    (opened : danteFlows host o = some flows) (inside : i < flows.length)
    (made : danteAnnouncement host o i = some sap) :
    ∃ fip, ipv4AddOctet o.aes67Base i = some fip ∧
      announcedDestination sap.sdp = some ⟨fip, o.rtpPort.toNat, o.ttl⟩ := by
  obtain ⟨fip, _, address, group, slash, _, built⟩ := danteAnnouncement_flow modes opened inside made
  refine ⟨fip, address, ?_⟩
  rw [(sdpBuild_eq_some.mp built).2.2]
  refine announcedDestination_sdpText group.unbroken slash ?_
  rintro text ⟨rfl⟩
  exact danteClock_unbroken clock

-- The announced TTL is an `int`, that of the socket a byte of at least 1.
theorem multicastTtl_eq_iff (ttl : Int) : ((multicastTtl ttl).toNat : Int) = ttl ↔ 1 ≤ ttl ∧ ttl ≤ 255 := by
  have byte := (multicastTtl ttl).toNat_lt
  by_cases low : ttl < 1
  next =>
    have one : (multicastTtl ttl).toNat = 1 := by simp [multicastTtl, low]
    omega
  next =>
    have value : ((multicastTtl ttl).toNat : Int) = ttl % 256 := by
      rw [multicastTtl, if_neg low, UInt8.ofInt, UInt8.toNat_ofNat']
      omega
    omega

/-- A receiver that hears `bytes` joins the group and port that the socket of flow `i` sends to. -/
def Joins (trace : Trace) (bytes : List UInt8) (i : Nat) : Prop :=
  ∃ message dest port ttl egress, parseSap bytes = some message ∧
    announcedDestination message.sdp = some dest ∧ dest.port = (port : UInt16).toNat ∧
    openingsOf (.media i) trace = [.sender dest.group port ttl egress] ∧
    (((ttl : UInt8).toNat : Int) = dest.ttl ↔ 1 ≤ dest.ttl ∧ dest.ttl ≤ 255)

-- What is heard is the announcement of a flow whose socket is known.
theorem DanteDelivery.heard (delivery : DanteDelivery host o cfg env flows run) :
    ∀ bytes ∈ datagramsOf .sap run.trace,
      ∃ i < flows.length, ∃ sap, danteAnnouncement host o i = some sap ∧ bytes = sap.bytes := by
  intro bytes member
  obtain ⟨rounds, sent, -⟩ := delivery.announcements
  rw [datagramsOf, sent, List.mem_filterMap] at member
  obtain ⟨action, carried, same⟩ := member
  obtain ⟨_, repeated, inside⟩ := List.mem_flatten.mp carried
  rw [List.eq_of_mem_replicate repeated, List.mem_map] at inside
  obtain ⟨sap, listed, rfl⟩ := inside
  obtain ⟨i, range, made⟩ := List.mem_filterMap.mp listed
  exact ⟨i, List.mem_range.mp range, sap, made, (Option.some.inj same).symm⟩

/-- Every announcement that goes out names the socket of one flow, and of no other. -/
theorem runDante_joins (modes : host.LibreacModes) (strings : o.Strings) (clock : Unbroken o.gmid)
    (sends : cfg.countOnly = false) (opened : danteFlows host o = some flows)
    (done : runDante host o cfg env = some run) :
    ∀ bytes ∈ datagramsOf .sap run.trace, ∃! i, Joins run.trace bytes i := by
  have delivery := runDante_delivers sends done
  rw [opened] at delivery
  simp only at delivery
  intro bytes member
  obtain ⟨i, inside, sap, made, rfl⟩ := delivery.heard bytes member
  obtain ⟨fip, address, named⟩ := danteAnnouncement_destination modes clock opened inside made
  obtain ⟨addr, hash, parsed⟩ := danteAnnouncement_heard modes strings opened inside made
  obtain ⟨a, b, c, d, groups⟩ := danteFlows_groups modes opened
  obtain rfl := Option.some.inj (address.symm.trans (groups i inside))
  have socket := delivery.sockets i
  rw [if_pos inside, flowSender_address address] at socket
  refine ⟨i, ⟨_, _, _, _, _, parsed, named, rfl, socket, multicastTtl_eq_iff o.ttl⟩, ?_⟩
  rintro j ⟨message, dest, port, ttl, egress, parsed', named', _, opening, _⟩
  obtain rfl := Option.some.inj (parsed.symm.trans parsed')
  obtain rfl := Option.some.inj (named.symm.trans named')
  have own := delivery.sockets j
  rw [opening] at own
  split at own
  next inside' =>
    rw [flowSender_address (groups j inside')] at own
    have group := (Opening.sender.inj (List.singleton_inj.mp own)).1
    have same := flowGroup_injective a b c group
    omega
  next => cases own

end Dante

end ReacAes67
