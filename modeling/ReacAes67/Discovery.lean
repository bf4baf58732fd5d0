import ReacAes67.DaemonRuns

set_option autoImplicit false

/-!
# Discovery

A receiver knows a stream only by what it hears on the announcement group, or by
what the operator has printed for it. Both are to name what the process sends.
-/

namespace ReacAes67

open BoundedPrint Handles TextLines

/-- A sender is only opened on an address that parses. -/
def AddressedSenders (host : Host) : Prop :=
  ∀ ip port, host.sendOpen ip port = true → (inetPton ip).isSome = true

theorem readOctet_digits {text rest : List Char} {octet : UInt8} (read : readOctet text = some (octet, rest)) :
    ∃ digits, text = digits ++ rest ∧ ∀ c ∈ digits, c.isDigit = true := by
  simp only [readOctet, readNat, Option.bind_eq_bind, Option.bind_eq_some_iff] at read
  obtain ⟨⟨value, behind⟩, number, read⟩ := read
  split at number
  next => cases number
  next =>
    obtain ⟨-, rfl⟩ := Prod.mk.inj (Option.some.inj number)
    simp only at read
    split at read
    next =>
      obtain ⟨-, rfl⟩ := Prod.mk.inj (Option.some.inj read)
      exact ⟨_, (List.takeWhile_append_dropWhile).symm, fun c member => List.mem_takeWhile_imp member⟩
    next => cases read

theorem dot_prefix {text rest : List Char} (stripped : ".".toList.isPrefixOf? text = some rest) :
    text = '.' :: rest := by
  cases text with
  | nil => cases stripped
  | cons c text =>
    by_cases same : '.' = c
    next =>
      subst same
      exact congrArg _ (Option.some.inj stripped)
    next => simp [List.isPrefixOf?, same] at stripped

-- Only dotted decimal parses.
theorem inetPton_dotted {text : List Char} (parses : (inetPton text).isSome = true) :
    ∀ c ∈ text, c.isDigit = true ∨ c = '.' := by
  obtain ⟨addr, parsed⟩ := Option.isSome_iff_exists.mp parses
  simp only [inetPton, Option.bind_eq_bind, Option.bind_eq_some_iff] at parsed
  obtain ⟨⟨a, restA⟩, readA, afterA, dotA, ⟨b, restB⟩, readB, afterB, dotB, ⟨c, restC⟩, readC, afterC, dotC,
    ⟨d, restD⟩, readD, ended⟩ := parsed
  obtain ⟨digitsA, rfl, allA⟩ := readOctet_digits readA
  obtain rfl := dot_prefix dotA
  obtain ⟨digitsB, rfl, allB⟩ := readOctet_digits readB
  obtain rfl := dot_prefix dotB
  obtain ⟨digitsC, rfl, allC⟩ := readOctet_digits readC
  obtain rfl := dot_prefix dotC
  obtain ⟨digitsD, rfl, allD⟩ := readOctet_digits readD
  simp only at ended
  split at ended
  next nothing =>
    intro ch member
    rw [nothing] at member
    simp only [List.mem_append, List.mem_cons, List.not_mem_nil, or_false] at member
    grind
  next => cases ended

/-! ## The texts of the command line -/

/-- The texts of a command line that reach a description. -/
structure Settings.Strings (s : Settings) : Prop where
  udp : ∀ udp ∈ s.udp, CString udp
  name : ∀ name ∈ s.name, CString name
  origin : CString s.origin
  gmid : CString s.gmid

theorem defaults_strings : ({} : Settings).Strings where
  udp := nofun
  name := nofun
  origin := literal_cString _ (by decide)
  gmid := literal_cString "00-00-00-00-00-00-00-00".toList (by decide)

section Arguments

variable {long : LongWidth} {s s' : Settings}

theorem ValueOption.update_strings {o : ValueOption} {v : List Char} {update : Settings → Settings}
    (given : o.update long v = some update) (value : CString v) (strings : s.Strings) :
    (update s).Strings := by
  obtain ⟨udp, name, origin, gmid⟩ := strings
  cases o with
  | udp =>
    cases given
    exact ⟨fun _ own => Option.some.inj own ▸ value, name, origin, gmid⟩
  | name =>
    cases given
    exact ⟨udp, fun _ own => Option.some.inj own ▸ value, origin, gmid⟩
  | origin =>
    cases given
    exact ⟨udp, name, value, gmid⟩
  | gmid =>
    cases given
    exact ⟨udp, name, origin, value⟩
  | rate =>
    simp only [ValueOption.update] at given
    split at given
    next =>
      cases given
      exact ⟨udp, name, origin, gmid⟩
    next =>
      obtain ⟨_, _, rfl⟩ := Option.map_eq_some_iff.mp given
      exact ⟨udp, name, origin, gmid⟩
  | pcap | listen | ssrc | iface | profile | aes67Base =>
    cases given
    exact ⟨udp, name, origin, gmid⟩
  | pt | ttl | plcXfade | plcFade | toneFreq | toneDetune | rtpPort | ptpDomain | chPerFlow | mediaDscp =>
    obtain ⟨_, _, rfl⟩ := Option.map_eq_some_iff.mp given
    exact ⟨udp, name, origin, gmid⟩

theorem Flag.update_strings (f : Flag) (strings : s.Strings) : (f.update s).Strings := by
  obtain ⟨udp, name, origin, gmid⟩ := strings
  cases f <;> exact ⟨udp, name, origin, gmid⟩

theorem applyArgs_strings {args : List Arg} (words : ∀ word ∈ args.flatMap Arg.words, CString word)
    (strings : s.Strings) (applied : applyArgs long s args = some s') : s'.Strings := by
  induction args generalizing s with
  | nil => exact Option.some.inj applied ▸ strings
  | cons arg args ih =>
    rw [List.flatMap_cons, List.forall_mem_append] at words
    simp only [applyArgs_cons, Option.bind_eq_some_iff] at applied
    obtain ⟨update, given, applied⟩ := applied
    refine ih words.2 ?_ applied
    cases arg with
    | value o v => exact ValueOption.update_strings given (words.1 v (by simp [Arg.words])) strings
    | flag f =>
      cases given
      exact Flag.update_strings f strings

theorem parseArgs_strings {argv : List (List Char)} (words : ∀ arg ∈ argv, CString arg) (strings : s.Strings)
    (parsed : parseArgs long s argv = .settings s') : s'.Strings := by
  obtain ⟨args, rest, rfl, stops⟩ := exists_words argv
  rw [parseArgs_words] at parsed
  cases applied : applyArgs long s args with
  | none =>
    rw [applied] at parsed
    cases parsed
  | some t =>
    simp only [applied] at parsed
    cases rest with
    | nil =>
      rw [parseArgs.eq_1, Parsed.settings.injEq] at parsed
      rw [← parsed]
      exact applyArgs_strings (fun word member => words word (List.mem_append_left _ member)) strings applied
    | cons arg rest =>
      rw [parseArgs_stray t stops] at parsed
      cases parsed

theorem parseIpport_strings {ipcap : Nat} {udp ip : List Char} {port : UInt16} (string : CString udp)
    (read : parseIpport ipcap udp = some (some (ip, port))) : CString ip := by
  unfold parseIpport at read
  split at read
  next => cases read
  next host _ split =>
    split at read
    next => cases read
    next =>
      obtain ⟨p, _, placed⟩ := Option.map_eq_some_iff.mp read
      split at placed
      next => cases placed
      next =>
        obtain ⟨rfl, -⟩ := Prod.mk.inj (Option.some.inj placed)
        unfold splitLastColon at split
        split at split
        next => cases split
        next before colon =>
          obtain ⟨rfl, -⟩ := Prod.mk.inj (Option.some.inj split)
          intro c member
          have behind : c ∈ udp.reverse.dropWhile (· ≠ ':') := by
            rw [colon]
            exact List.mem_cons_of_mem _ (List.mem_reverse.mp member)
          exact string c (List.mem_reverse.mp (List.dropWhile_subset _ behind))

end Arguments

/-! ## The plain announcement -/

section Plain

variable {host : Host} {env : Surroundings} {o : Options} {cfg : PlainLaunch} {run : PlainRun} {sap : SapPacket}

theorem plainAnnouncement_packet (made : plainAnnouncement host o = some sap) :
    ∃ addr, sdpBuild 768 (plainSdp host o) = some sap.sdp ∧
      sap = ⟨sapHeader addr (sapHash sap.sdp), sap.sdp⟩ := by
  unfold plainAnnouncement at made
  split at made
  next =>
    simp only [sapAnnouncerStart, Option.bind_eq_bind, Option.bind_eq_some_iff] at made
    obtain ⟨sdp, built, packet, wrapped, made⟩ := made
    split at made
    next =>
      obtain rfl := Option.some.inj made
      have same := sapBuild_sdp wrapped
      simp only [sapBuild, Option.bind_eq_bind, Option.bind_eq_some_iff] at wrapped
      obtain ⟨addr, _, wrapped⟩ := wrapped
      split at wrapped
      next => cases wrapped
      next =>
        obtain rfl := Option.some.inj wrapped
        exact ⟨addr, built, rfl⟩
    next => cases made
  next => cases made

theorem dotted_group {group : List Char} (dotted : ∀ c ∈ group, c.isDigit = true ∨ c = '.') :
    Unbroken group ∧ '/' ∉ group := by
  have graphic : Graphic group := by
    intro c member
    rcases dotted c member with digit | rfl
    next =>
      simp only [Char.isDigit, Bool.and_eq_true, decide_eq_true_eq] at digit
      have low : 48 ≤ c.toNat := digit.1
      have high : c.toNat ≤ 57 := digit.2
      omega
    next => decide
  exact ⟨graphic.unbroken, fun member => absurd (dotted _ member) (by decide)⟩

theorem plainAnnouncement_destination (sockets : AddressedSenders host)
    (isOpen : host.sendOpen o.udpIp o.udpPort = true)
    (made : plainAnnouncement host o = some sap) :
    announcedDestination sap.sdp = some ⟨o.udpIp, o.udpPort.toNat, o.ttl⟩ := by
  obtain ⟨_, built, _⟩ := plainAnnouncement_packet made
  obtain ⟨group, slash⟩ := dotted_group (inetPton_dotted (sockets _ _ isOpen))
  rw [(sdpBuild_eq_some.mp built).2.2]
  exact announcedDestination_sdpText group slash nofun

theorem PlainDelivery.heard (delivery : PlainDelivery host o cfg env run) :
    ∀ bytes ∈ datagramsOf .sap run.trace, ∃ sap, plainAnnouncement host o = some sap ∧ bytes = sap.bytes := by
  intro bytes member
  obtain ⟨rounds, sent, -⟩ := delivery.announcements
  rw [datagramsOf, sent, List.mem_filterMap] at member
  obtain ⟨action, carried, same⟩ := member
  obtain ⟨_, repeated, inside⟩ := List.mem_flatten.mp carried
  rw [List.eq_of_mem_replicate repeated, List.mem_map] at inside
  obtain ⟨sap, made, rfl⟩ := inside
  exact ⟨sap, Option.mem_toList.mp made, (Option.some.inj same).symm⟩

theorem plainAnnouncement_parse (name : CString (announcedName o)) (origin : CString o.origin)
    (udp : CString o.udpIp) (made : plainAnnouncement host o = some sap) :
    ∃ addr hash, parseSap sap.bytes = some ⟨addr, hash, sap.sdp⟩ := by
  obtain ⟨addr, built, packet⟩ := plainAnnouncement_packet made
  have string : CString sap.sdp := by
    rw [(sdpBuild_eq_some.mp built).2.2]
    exact sdpText_strings name origin udp nofun
  exact ⟨addr, sapHash sap.sdp, by rw [packet, SapPacket.bytes, parseSap_header, map_charByte string]⟩

theorem PlainDelivery.joins (delivery : PlainDelivery host o cfg env run) (sockets : AddressedSenders host)
    (isOpen : host.sendOpen o.udpIp o.udpPort = true) (name : CString (announcedName o))
    (origin : CString o.origin) (udp : CString o.udpIp) :
    ∀ bytes ∈ datagramsOf .sap run.trace, ∃! i, Joins run.trace bytes i := by
  intro bytes member
  obtain ⟨sap, made, rfl⟩ := delivery.heard bytes member
  obtain ⟨addr, hash, parsed⟩ := plainAnnouncement_parse name origin udp made
  have named := plainAnnouncement_destination sockets isOpen made
  refine ⟨0, ⟨_, _, _, _, _, parsed, named, rfl, delivery.sockets 0, multicastTtl_eq_iff o.ttl⟩, ?_⟩
  rintro i ⟨_, _, _, _, _, _, _, _, opening, _⟩
  by_contra other
  rw [delivery.sockets i, if_neg other] at opening
  cases opening

end Plain

/-! ## What is heard -/

section Heard

variable {host : Host} {env : Surroundings} {run : ProcessRun} {s : Settings} {argv : List (List Char)}

theorem openingsOf_resolveRate (i : Nat) : openingsOf (.media i) (resolveRate env s).2 = [] := by
  obtain ⟨-, nothing | ⟨_, _, bracket⟩⟩ := resolveRate_eq env s
  next => rw [nothing, openingsOf_nil]
  next => simp [bracket, openingsOf_opened]

theorem Joins.listened {trace : Trace} {bytes : List UInt8} {i : Nat} :
    Joins ((resolveRate env s).2 ++ trace) bytes i ↔ Joins trace bytes i := by
  unfold Joins
  rw [openingsOf_append, openingsOf_resolveRate, List.nil_append]

theorem Settings.Strings.resolved (strings : s.Strings) (env : Surroundings) :
    (resolveRate env s).1.Strings := by
  obtain ⟨⟨rate, same⟩, -⟩ := resolveRate_eq env s
  rw [same]
  exact ⟨strings.udp, strings.name, strings.origin, strings.gmid⟩

theorem Settings.Strings.announcedName (strings : s.Strings) (ip : List Char) (port : UInt16) :
    CString (announcedName (s.options ip port)) := by
  have same : ReacAes67.announcedName (s.options ip port) = s.name.getD "REAC".toList := rfl
  rw [same]
  cases given : s.name with
  | none => exact literal_cString "REAC".toList (by decide)
  | some name => exact strings.name name given

/-- Every announcement that goes out names the destination of one media socket of the process, and of no other,
unless the clock of the Dante profile is given with a line break. -/
theorem mainProcess_joins (modes : host.LibreacModes) (sockets : AddressedSenders host)
    (words : ∀ arg ∈ argv, CString arg)
    (clock : ∀ s, parseArgs env.long {} argv = .settings s → s.profileDante = true → Unbroken s.gmid)
    (done : mainProcess host env argv = some run) :
    ∀ bytes ∈ datagramsOf .sap run.trace, ∃! i, Joins run.trace bytes i := by
  have unheard (silent : datagramsOf .sap run.trace = []) :
      ∀ bytes ∈ datagramsOf .sap run.trace, ∃! i, Joins run.trace bytes i := by
    rw [silent]
    exact fun bytes member => absurd member List.not_mem_nil
  cases parsed : parseArgs env.long {} argv with
  | undefined =>
    rw [mainProcess, parsed] at done
    cases done
  | unknown arg =>
    rw [mainProcess, parsed] at done
    cases done
    exact unheard rfl
  | settings s =>
    have strings := parseArgs_strings words defaults_strings parsed
    by_cases sends : s.Sends
    next =>
      cases dante : s.profileDante with
      | true =>
        have started := mainProcess_dante parsed sends dante done
        split at started
        next =>
          cases started
          exact unheard rfl
        next =>
          obtain ⟨sent, runs, rfl⟩ := started
          cases opened : danteFlows host s.danteOptions with
          | none =>
            have failed := runDante_delivers rfl runs
            rw [opened] at failed
            exact unheard (datagramsOf_eq_nil.mpr (failed.2.2 .sap))
          | some flows =>
            exact runDante_joins modes ⟨strings.announcedName [] 0, strings.origin, strings.gmid⟩
              (clock s parsed dante) rfl opened runs
      | false =>
        obtain ⟨udp, ip, port, sent, given, read, runs, rfl⟩ | rfl := mainProcess_plain parsed sends dante done
        next =>
          obtain ⟨-, delivery⟩ := runPlain_delivers runs
          have resolved := strings.resolved env
          have udpString := parseIpport_strings (strings.udp udp given) read
          simp only [Joins.listened, datagramsOf_listened]
          split at delivery
          next isOpen =>
            exact delivery.joins sockets isOpen (resolved.announcedName ip port) resolved.origin udpString
          next =>
            rw [delivery.2]
            exact fun bytes member => absurd member List.not_mem_nil
        next => exact unheard (datagramsOf_resolveRate _)
    next =>
      rw [mainProcess_settings parsed] at done
      obtain ⟨inner, dispatched, rfl⟩ := Option.map_eq_some_iff.mp done
      have other : ¬ (resolveRate env s).1.Sends := by
        obtain ⟨⟨rate, same⟩, -⟩ := resolveRate_eq env s
        rw [same]
        exact fun asks => sends ⟨asks.printSdp, asks.dumpSamples, asks.countRtp⟩
      exact unheard ((datagramsOf_listened _ _).trans ((dispatch_quiet other dispatched).silent .sap))

def socketHost : Host :=
  { libreacHost with
    inetPton := inetPton
    sendOpen := fun ip _ => (inetPton ip).isSome }

theorem socketHost_modes : socketHost.LibreacModes := ⟨libreacHost_modes.standard, libreacHost_modes.known⟩

theorem danteArguments_strings : ∀ arg ∈ danteArguments, CString arg := by
  simp only [danteArguments, List.forall_mem_cons]
  exact ⟨literal_cString _ (by decide), literal_cString _ (by decide), literal_cString _ (by decide), by simp⟩

-- One announcement for each of the five flows.
theorem danteArguments_announced : ∃ run, mainProcess socketHost busySurroundings danteArguments = some run ∧
    (datagramsOf .sap run.trace).length = 5 := by
  have heard : ((mainProcess socketHost busySurroundings danteArguments).map fun run =>
      (datagramsOf .sap run.trace).length) = some 5 := by decide +kernel
  exact Option.map_eq_some_iff.mp heard

theorem mainProcess_joins_dante : ∃ run, mainProcess socketHost busySurroundings danteArguments = some run ∧
    (datagramsOf .sap run.trace).length = 5 ∧
      ∀ bytes ∈ datagramsOf .sap run.trace, ∃! i, Joins run.trace bytes i := by
  obtain ⟨run, done, heard⟩ := danteArguments_announced
  refine ⟨run, done, heard, mainProcess_joins socketHost_modes (fun _ _ => id) danteArguments_strings ?_ done⟩
  intro s parsed _
  cases parsed
  exact placeholderClock_unbroken

end Heard

/-! ## What is printed -/

section Printed

variable {host : Host} {env : Surroundings} {run : ProcessRun} {s : Settings} {argv : List (List Char)}
  {o : Options} {flows : List ReacFlow}

theorem sdpText_length_places (p : SdpParams) : (sdpText p).length =
    (beforeNumber p.originIp []).length + p.sessionName.length + "\r\nc=IN IP4 ".toList.length +
      p.mcastIp.length + (betweenGroup p).length + (decimal p.channels).length + (afterChannels p).length := by
  have before : (beforeNumber p.originIp p.sessionName).length =
      (beforeNumber p.originIp []).length + p.sessionName.length := by
    unfold beforeNumber
    simp only [List.length_append, List.length_nil]
    omega
  rw [sdpText_places p (List.append_nil _).symm (List.nil_append _).symm]
  simp only [List.length_append, List.length_nil, before]
  omega

theorem decimal_length_near {m : Int} {n k : Nat} (small : n < 10 ^ (k + 1)) :
    (decimal n).length ≤ (decimal m).length + k := by
  have digits := decimal_length_le (Nat.succ_pos k) small
  have some_digit := decimal_length_pos m
  omega

-- The texts of two flows differ in a number, an octet and a width.
theorem flowText_near (modes : host.LibreacModes) (opened : danteFlows host o = some flows) {i j : Nat}
    (inside : i < flows.length) (inside' : j < flows.length) {left right : List Char}
    (address : ipv4AddOctet o.aes67Base i = some left) (address' : ipv4AddOctet o.aes67Base j = some right) :
    (sdpText (danteFlowSdp host o j flows[j] right)).length ≤
      (sdpText (danteFlowSdp host o i flows[i] left)).length + 4 := by
  have few := danteFlows_few modes opened
  have name : ((announcedName o ++ ['-'] ++ decimal (j + 1)).take 63).length ≤
      ((announcedName o ++ ['-'] ++ decimal (i + 1)).take 63).length + 1 := by
    have number : (decimal (j + 1)).length ≤ (decimal (i + 1)).length + 1 :=
      decimal_length_near (n := j + 1) (k := 1) (by omega)
    simp only [List.length_take, List.length_append]
    omega
  have group : right.length ≤ left.length + 2 := by
    obtain ⟨a, b, c, d, scanned, _, _, rfl⟩ := ipv4AddOctet_stem (by omega) address
    obtain ⟨a', b', c', d', scanned', _, small, rfl⟩ := ipv4AddOctet_stem (by omega) address'
    obtain ⟨rfl, rfl, rfl, rfl⟩ : a = a' ∧ b = b' ∧ c = c' ∧ d = d' := by
      simpa [scanned] using scanned'
    have octet : (decimal (d.toNat + j : Nat)).length ≤ (decimal (d.toNat + i : Nat)).length + 2 :=
      decimal_length_near (by omega)
    simp only [flowGroup, List.length_append]
    omega
  have channels : (decimal flows[j].nCh).length ≤ (decimal flows[i].nCh).length + 1 := by
    obtain ⟨n, accepted, built⟩ := danteFlows_built opened
    obtain ⟨rate, _, mode⟩ := modes.known (if o.profileDante then 48000 else o.rate)
    rw [Options.mode, mode] at built
    obtain ⟨⟨start, width, narrow⟩, -⟩ := danteBuildFlows_slices accepted built _ (List.getElem_mem inside')
    simp only [broadcastMode, reacMaxChannels] at narrow
    lift flows[j].nCh to Nat using width.le with k same
    exact decimal_length_near (k := 1) (by omega)
  have types : flows[j].payloadType = flows[i].payloadType :=
    (danteFlows_payloadType opened (List.getElem?_eq_getElem inside')).trans
      (danteFlows_payloadType opened (List.getElem?_eq_getElem inside)).symm
  have between : (betweenGroup (danteFlowSdp host o j flows[j] right)).length =
      (betweenGroup (danteFlowSdp host o i flows[i] left)).length := by
    simp only [betweenGroup_length, danteFlowSdp, types]
  have after : afterChannels (danteFlowSdp host o j flows[j] right) =
      afterChannels (danteFlowSdp host o i flows[i] left) := rfl
  rw [sdpText_length_places, sdpText_length_places, between, after]
  simp only [danteFlowSdp]
  omega

-- A text that an `int` can count has no part that is too long for one.
theorem sdpBuild_room {cap : Nat} {p : SdpParams} (room : (sdpText p).length < cap) (small : cap ≤ intMax) :
    sdpBuild cap p = some (sdpText p) := by
  refine sdpBuild_eq_some.mpr ⟨?_, room, rfl⟩
  have whole : (sdpText p).length =
      (descriptionHead p).length + (trailer p).length + (endLine "a=recvonly".toList).length := by
    rw [sdpText, List.length_append, List.length_append]
  rintro (long | long) <;> omega

/-- The part of flow `i` in what `--print-sdp` prints: a line on the flow, its description and an empty line. -/
def printedFlow (o : Options) (i : Nat) (fl : ReacFlow) (sdp : List Char) : List Char :=
  flowHeader i fl ((ipv4AddOctet o.aes67Base i).getD []) ++ sdp ++ "\r\n".toList

theorem printFlows_whole {sdps : Nat → List Char} {table : List (ReacFlow × Nat)}
    (built : ∀ fl ∈ table, ∃ fip, ipv4AddOctet o.aes67Base fl.2 = some fip ∧
      sdpBuild 1024 (danteFlowSdp host o fl.2 fl.1 fip) = some (sdps fl.2)) :
    printFlows host o table = (0, table.flatMap fun fl => printedFlow o fl.2 fl.1 (sdps fl.2)) := by
  induction table with
  | nil => rfl
  | cons fl table ih =>
    obtain ⟨fip, address, rendered⟩ := built fl List.mem_cons_self
    have here : printFlow host o fl.2 fl.1 = .ok (printedFlow o fl.2 fl.1 (sdps fl.2)) := by
      simp only [printFlow, printedFlow, address, rendered, Option.getD_some]
    rw [printFlows, here, ih fun fl member => built fl (List.mem_cons_of_mem _ member), List.flatMap_cons]

/-- If one flow's description fits an announcement, those of all flows are printed. -/
theorem printDante_whole (modes : host.LibreacModes) (opened : danteFlows host o = some flows) {i : Nat}
    (inside : i < flows.length) {sap : SapPacket} (made : danteAnnouncement host o i = some sap) :
    ∃ sdps : Nat → List Char,
      printDante host o = some ⟨0, [], (flows.zipIdx 0).flatMap fun fl => printedFlow o fl.2 fl.1 (sdps fl.2)⟩ ∧
        ∀ j < flows.length, ∀ sap, danteAnnouncement host o j = some sap → sap.sdp = sdps j := by
  obtain ⟨n, accepted, built⟩ := danteFlows_built opened
  obtain ⟨_, _, address, _, _, _, rendered⟩ := danteAnnouncement_flow modes opened inside made
  have short := (sdpBuild_eq_some.mp rendered).2.1
  obtain ⟨a, b, c, d, groups⟩ := danteFlows_groups modes opened
  let sdps : Nat → List Char := fun j =>
    (flows[j]?.map fun fl => sdpText (danteFlowSdp host o j fl (flowGroup a b c (d + j)))).getD []
  refine ⟨sdps, ?_, fun j inside' sap made' => ?_⟩
  next =>
    have each : ∀ fl ∈ flows.zipIdx 0, ∃ fip, ipv4AddOctet o.aes67Base fl.2 = some fip ∧
        sdpBuild 1024 (danteFlowSdp host o fl.2 fl.1 fip) = some (sdps fl.2) := by
      rintro ⟨fl, j⟩ member
      have listed : flows[j]? = some fl := List.mem_zipIdx_iff_getElem?.mp member
      obtain ⟨inside', rfl⟩ := List.getElem?_eq_some_iff.mp listed
      have near := flowText_near modes opened inside inside' address (groups j inside')
      refine ⟨_, groups j inside', ?_⟩
      simp only [sdps, List.getElem?_eq_getElem inside', Option.map_some, Option.getD_some]
      exact sdpBuild_room (by omega) (by decide)
    simp only [printDante, built, Option.bind_eq_bind, Option.bind_some, if_neg (not_lt.mpr accepted),
      printFlows_whole each]
    rfl
  next =>
    obtain ⟨_, _, address', _, _, _, rendered'⟩ := danteAnnouncement_flow modes opened inside' made'
    obtain rfl := Option.some.inj (address'.symm.trans (groups j inside'))
    rw [(sdpBuild_eq_some.mp rendered').2.2]
    simp only [sdps, List.getElem?_eq_getElem inside', Option.map_some, Option.getD_some]

theorem printPlain_whole {udp ip : List Char} {port : UInt16} {sap : SapPacket} (given : s.udp = some udp)
    (read : parseIpport 64 udp = some (some (ip, port)))
    (made : plainAnnouncement host (s.options ip port) = some sap) :
    printPlain host s = some ⟨0, [], sap.sdp⟩ := by
  obtain ⟨_, built, _⟩ := plainAnnouncement_packet made
  obtain ⟨short, room, same⟩ := sdpBuild_eq_some.mp built
  have larger := sdpBuild_eq_some.mpr ⟨short, room.trans (by decide : 768 < 1024), same⟩
  simp only [printPlain, given, read, Option.bind_eq_bind, Option.bind_some, larger]
  rfl

theorem resolveRate_printSdp (env : Surroundings) (s : Settings) :
    resolveRate env (Flag.printSdp.update s) =
      (Flag.printSdp.update (resolveRate env s).1, (resolveRate env s).2) := by
  have iface : (Flag.printSdp.update s).iface = s.iface := rfl
  unfold resolveRate
  rw [iface]
  cases s.iface with
  | none => rfl
  | some ifname =>
    have listens : (Flag.printSdp.update s).rateAuto = s.rateAuto ∧
        (Flag.printSdp.update s).profileDante = s.profileDante := ⟨rfl, rfl⟩
    simp only [listens]
    split
    next =>
      by_cases heard : 0 < env.detectRate ifname
      next => simp only [if_pos heard, Flag.update]
      next => simp only [if_neg heard]
    next => rfl

theorem dispatch_prints : dispatch host env (Flag.printSdp.update s) =
    if s.profileDante then printDante host s.danteOptions else printPlain host s := rfl

theorem mainProcess_printing (parsed : parseArgs env.long {} argv = .settings s) :
    mainProcess host env (argv ++ [Flag.printSdp.text]) =
      (if (resolveRate env s).1.profileDante then printDante host (resolveRate env s).1.danteOptions
        else printPlain host (resolveRate env s).1).map fun run =>
          { run with trace := (resolveRate env s).2 ++ run.trace } := by
  rw [mainProcess_settings (parseArgs_append_flag parsed .printSdp), resolveRate_printSdp, dispatch_prints]

theorem announced_printed_dante (modes : host.LibreacModes) (words : ∀ arg ∈ argv, CString arg)
    (parsed : parseArgs env.long {} argv = .settings s) (sends : s.Sends) (dante : s.profileDante = true)
    (done : mainProcess host env argv = some run) (heard : datagramsOf .sap run.trace ≠ []) :
    let o := s.danteOptions
    ∃ (flows : List ReacFlow) (sdps : Nat → List Char), danteFlows host o = some flows ∧
      printDante host o =
        some ⟨0, [], (flows.zipIdx 0).flatMap fun fl => printedFlow o fl.2 fl.1 (sdps fl.2)⟩ ∧
      ∀ bytes ∈ datagramsOf .sap run.trace, ∃ i < flows.length, ∃ sap message,
        danteAnnouncement host o i = some sap ∧ bytes = sap.bytes ∧ parseSap bytes = some message ∧
          message.sdp = sdps i := by
  have strings := parseArgs_strings words defaults_strings parsed
  have started := mainProcess_dante parsed sends dante done
  split at started
  next =>
    cases started
    exact absurd rfl heard
  next =>
    obtain ⟨sent, runs, rfl⟩ := started
    have delivery := runDante_delivers rfl runs
    cases opened : danteFlows host s.danteOptions with
    | none =>
      rw [opened] at delivery
      exact absurd (datagramsOf_eq_nil.mpr (delivery.2.2 .sap)) heard
    | some flows =>
      rw [opened] at delivery
      obtain ⟨bytes, member⟩ := List.exists_mem_of_ne_nil _ heard
      obtain ⟨i, inside, sap, made, rfl⟩ := delivery.heard bytes member
      obtain ⟨sdps, printed, parts⟩ := printDante_whole modes opened inside made
      refine ⟨flows, sdps, opened, printed, fun bytes member => ?_⟩
      obtain ⟨j, inside', sap', made', rfl⟩ := delivery.heard bytes member
      obtain ⟨addr, hash, parsed'⟩ := danteAnnouncement_heard modes
        ⟨strings.announcedName [] 0, strings.origin, strings.gmid⟩ opened inside' made'
      exact ⟨j, inside', sap', _, made', rfl, parsed', parts j inside' sap' made'⟩

theorem announced_printed_plain (words : ∀ arg ∈ argv, CString arg)
    (parsed : parseArgs env.long {} argv = .settings s) (sends : s.Sends) (plain : s.profileDante = false)
    (done : mainProcess host env argv = some run) (heard : datagramsOf .sap run.trace ≠ []) :
    ∃ sdp, printPlain host (resolveRate env s).1 = some ⟨0, [], sdp⟩ ∧
      ∀ bytes ∈ datagramsOf .sap run.trace, ∃ message, parseSap bytes = some message ∧ message.sdp = sdp := by
  have strings := parseArgs_strings words defaults_strings parsed
  have udp : (resolveRate env s).1.udp = s.udp := by
    obtain ⟨⟨rate, same⟩, -⟩ := resolveRate_eq env s
    rw [same]
  obtain ⟨udp', ip, port, sent, given, read, runs, rfl⟩ | rfl := mainProcess_plain parsed sends plain done
  next =>
    obtain ⟨-, delivery⟩ := runPlain_delivers runs
    rw [datagramsOf_listened] at heard ⊢
    split at delivery
    next =>
      obtain ⟨bytes, member⟩ := List.exists_mem_of_ne_nil _ heard
      obtain ⟨sap, made, rfl⟩ := delivery.heard bytes member
      refine ⟨sap.sdp, printPlain_whole (udp.trans given) read made, fun bytes member => ?_⟩
      obtain ⟨sap', made', rfl⟩ := delivery.heard bytes member
      obtain rfl := Option.some.inj (made.symm.trans made')
      have resolved := strings.resolved env
      obtain ⟨addr, hash, parsed'⟩ := plainAnnouncement_parse (resolved.announcedName ip port) resolved.origin
        (parseIpport_strings (strings.udp udp' given) read) made
      exact ⟨_, parsed', rfl⟩
    next =>
      rw [delivery.2] at heard
      exact absurd rfl heard
  next => exact absurd (datagramsOf_resolveRate _) heard

/-- If a command line announces anything, then with `--print-sdp` at its end it prints what it announces: the
whole output is the description, or with the Dante profile the parts of its flows, each with the one of its
announcement. -/
theorem mainProcess_prints (modes : host.LibreacModes) (words : ∀ arg ∈ argv, CString arg)
    (parsed : parseArgs env.long {} argv = .settings s) (sends : s.Sends)
    (done : mainProcess host env argv = some run) (heard : datagramsOf .sap run.trace ≠ []) :
    ∃ printed, mainProcess host env (argv ++ [Flag.printSdp.text]) = some printed ∧ printed.rc = 0 ∧
      if s.profileDante then
        let o := s.danteOptions
        ∃ (flows : List ReacFlow) (sdps : Nat → List Char), danteFlows host o = some flows ∧
          printed.printed = ((flows.zipIdx 0).flatMap fun fl => printedFlow o fl.2 fl.1 (sdps fl.2)) ∧
          ∀ bytes ∈ datagramsOf .sap run.trace, ∃ i < flows.length, ∃ sap message,
            danteAnnouncement host o i = some sap ∧ bytes = sap.bytes ∧ parseSap bytes = some message ∧
              message.sdp = sdps i
      else
        ∀ bytes ∈ datagramsOf .sap run.trace, ∃ message, parseSap bytes = some message ∧
          message.sdp = printed.printed := by
  rw [mainProcess_printing parsed]
  cases dante : s.profileDante with
  | true =>
    obtain ⟨flows, sdps, opened, printed, parts⟩ :=
      announced_printed_dante modes words parsed sends dante done heard
    rw [resolveRate_dante dante, if_pos dante, printed]
    exact ⟨_, rfl, rfl, flows, sdps, opened, rfl, parts⟩
  | false =>
    obtain ⟨sdp, printed, parts⟩ := announced_printed_plain words parsed sends dante done heard
    obtain ⟨⟨rate, same⟩, -⟩ := resolveRate_eq env s
    have plain : (resolveRate env s).1.profileDante = false := by rw [same, dante]
    rw [if_neg (by simp [plain]), printed]
    exact ⟨_, rfl, rfl, parts⟩

theorem mainProcess_prints_dante :
    ∃ (run printed : ProcessRun) (flows : List ReacFlow) (sdps : Nat → List Char),
    mainProcess socketHost busySurroundings danteArguments = some run ∧
      (datagramsOf .sap run.trace).length = 5 ∧
      mainProcess socketHost busySurroundings (danteArguments ++ ["--print-sdp".toList]) = some printed ∧
      danteFlows socketHost danteSettings.danteOptions = some flows ∧
      printed.printed = (flows.zipIdx 0).flatMap fun fl =>
        printedFlow danteSettings.danteOptions fl.2 fl.1 (sdps fl.2) := by
  obtain ⟨run, done, heard⟩ := danteArguments_announced
  obtain ⟨printed, printing, _, flows, sdps, opened, parts, _⟩ := mainProcess_prints socketHost_modes
    danteArguments_strings (danteArguments_parsed _) ⟨rfl, rfl, rfl⟩ done (by
      intro none
      rw [none] at heard
      cases heard)
  exact ⟨run, printed, flows, sdps, done, heard, printing, opened, parts⟩

end Printed

end ReacAes67
