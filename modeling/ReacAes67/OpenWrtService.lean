import ReacAes67.DaemonRuns

set_option autoImplicit false

/-!
# The service of the router

The init script starts one process for each enabled section of the
configuration. It passes on texts, and the process reads them back.
-/

namespace ReacAes67

open TextLines

/-- The options of a `stream` section with the defaults of `validate_stream_section`; those without a default
may be empty. -/
structure StreamSection where
  enabled : List Char
  name : List Char
  iface : List Char
  rate : List Char
  mcastAddr : List Char
  mcastPort : List Char
  payloadType : List Char
  ssrc : List Char
  ttl : List Char
  plcXfade : List Char
  plcFadePkts : List Char
  sap : List Char
  egressIface : List Char
  profile : List Char
  aes67Base : List Char
  rtpPort : List Char
  chPerFlow : List Char
  gmid : List Char
  ptpDomain : List Char

-- "${text:-default}"
def orElse (text default : List Char) : List Char := if text = [] then default else text

def number (text : List Char) : Nat := (readNat text).elim 0 Prod.fst

-- [ "$text" -gt 0 ]
def greaterThanZero (text : List Char) : Bool := readWhole text |>.any (0 < ·)

-- [ -n "$text" ] && procd_append_param command ...
def appendParam (wanted : Bool) (words : List (List Char)) : List (List Char) := if wanted then words else []

def StreamSection.dante (s : StreamSection) : Bool := s.profile = "dante".toList

def danteCommand (cfg : List Char) (s : StreamSection) : List (List Char) :=
  ["--profile".toList, "dante".toList,
    "--listen".toList, s.iface,
    "--aes67-base".toList, s.aes67Base,
    "--rtp-port".toList, orElse s.rtpPort "5004".toList,
    "--ch-per-flow".toList, orElse s.chPerFlow "8".toList,
    "--ptp-domain".toList, orElse s.ptpDomain "0".toList,
    "--pt".toList, s.payloadType,
    "--ssrc".toList, s.ssrc,
    "--ttl".toList, s.ttl,
    "--name".toList, orElse s.name cfg] ++
  appendParam (s.gmid ≠ []) ["--gmid".toList, s.gmid]

def plainCommand (cfg : List Char) (s : StreamSection) : List (List Char) :=
  ["--listen".toList, s.iface,
    "--udp".toList, s.mcastAddr ++ ":".toList ++ s.mcastPort,
    "--rate".toList, s.rate,
    "--pt".toList, s.payloadType,
    "--ssrc".toList, s.ssrc,
    "--ttl".toList, s.ttl,
    "--name".toList, orElse s.name cfg] ++
  appendParam (greaterThanZero (orElse s.plcXfade "0".toList)) ["--plc-xfade".toList, s.plcXfade] ++
  appendParam (greaterThanZero (orElse s.plcFadePkts "0".toList)) ["--plc-fade".toList, s.plcFadePkts]

/-- The arguments of the instance that `start_stream` opens for the section `cfg`, if it opens one. -/
def startStream (cfg : List Char) (s : StreamSection) : Option (List (List Char)) :=
  if s.enabled ≠ "1".toList ∨ s.iface = [] then none
  else if (if s.dante then s.aes67Base else s.mcastAddr) = [] then none
  else
    some ((if s.dante then danteCommand cfg s else plainCommand cfg s) ++
      appendParam (orElse s.sap "1".toList ≠ "1".toList) ["--no-sap".toList] ++
      appendParam (s.egressIface ≠ []) ["--iface".toList, s.egressIface])

/-- Decimal digits with a value of the given range. -/
def Number (low high : Nat) (text : List Char) : Prop :=
  ∃ n, low ≤ n ∧ n ≤ high ∧ readNat text = some (n, [])

/-- What `uci_validate_section` has checked, for numbers that an `int` holds. -/
structure StreamSection.Valid (s : StreamSection) : Prop where
  rate : s.rate = "48000".toList ∨ s.rate = "96000".toList
  mcastPort : Number 0 65535 s.mcastPort
  payloadType : Number 96 127 s.payloadType
  ttl : Number 1 255 s.ttl
  plcXfade : Number 0 2147483647 s.plcXfade
  plcFadePkts : Number 0 2147483647 s.plcFadePkts
  rtpPort : Number 0 65535 s.rtpPort
  chPerFlow : Number 1 40 s.chPerFlow
  ptpDomain : Number 0 127 s.ptpDomain

-- What both profiles take from a section.
def StreamSection.common (long : LongWidth) (cfg : List Char) (s : StreamSection) : Settings where
  iface := some s.iface
  pt := UInt8.ofNat (number s.payloadType)
  ptSet := true
  ssrc := strtoulHex long s.ssrc
  ttl := number s.ttl
  name := some (orElse s.name cfg)
  doSap := orElse s.sap "1".toList = "1".toList
  ifaceEgress := if s.egressIface = [] then none else some s.egressIface

/-- The settings that a section asks for. -/
def StreamSection.settings (long : LongWidth) (cfg : List Char) (s : StreamSection) : Settings :=
  if s.dante then
    { s.common long cfg with
      profileDante := true
      aes67Base := s.aes67Base
      rtpPort := UInt16.ofNat (number s.rtpPort)
      chPerFlow := number s.chPerFlow
      ptpDomain := number s.ptpDomain
      gmid := if s.gmid = [] then placeholderClock else s.gmid }
  else
    { s.common long cfg with
      udp := some (s.mcastAddr ++ ":".toList ++ s.mcastPort)
      rate := number s.rate
      plcXfade := number s.plcXfade
      plcFade := number s.plcFadePkts }

-- Ten flows from a clock whose text is none, announced to nobody.
def exampleStream : StreamSection where
  enabled := "1".toList
  name := "--stage left--".toList
  iface := "eth0".toList
  rate := "96000".toList
  mcastAddr := []
  mcastPort := "0".toList
  payloadType := "100".toList
  ssrc := "c0ffee".toList
  ttl := "32".toList
  plcXfade := "0".toList
  plcFadePkts := "0".toList
  sap := "0".toList
  egressIface := "eth1".toList
  profile := "dante".toList
  aes67Base := "239.69.0.20".toList
  rtpPort := "5006".toList
  chPerFlow := "4".toList
  gmid := "--pt\r\nm=audio".toList
  ptpDomain := "3".toList

theorem exampleStream_valid : exampleStream.Valid where
  rate := .inr rfl
  mcastPort := ⟨0, by decide, by decide, by decide⟩
  payloadType := ⟨100, by decide, by decide, by decide⟩
  ttl := ⟨32, by decide, by decide, by decide⟩
  plcXfade := ⟨0, by decide, by decide, by decide⟩
  plcFadePkts := ⟨0, by decide, by decide, by decide⟩
  rtpPort := ⟨5006, by decide, by decide, by decide⟩
  chPerFlow := ⟨4, by decide, by decide, by decide⟩
  ptpDomain := ⟨3, by decide, by decide, by decide⟩

/-! ## Numbers -/

section Numbers

variable {low high : Nat} {text : List Char}

theorem readNat_number (valid : Number low high text) : readNat text = some (number text, []) := by
  obtain ⟨n, _, _, read⟩ := valid
  rw [read, number, read]
  rfl

theorem number_le (valid : Number low high text) : low ≤ number text ∧ number text ≤ high := by
  obtain ⟨n, least, most, read⟩ := valid
  rw [number, read]
  exact ⟨least, most⟩

theorem number_digit (valid : Number low high text) : ∃ c rest, text = c :: rest ∧ c.isDigit = true := by
  obtain ⟨n, _, _, read⟩ := valid
  by_cases digits : text.takeWhile Char.isDigit = []
  next =>
    rw [readNat, if_pos digits] at read
    cases read
  next =>
    cases text with
    | nil => exact absurd rfl digits
    | cons c rest =>
      refine ⟨c, rest, rfl, ?_⟩
      by_contra other
      exact digits (by simp [other])

theorem splitSign_number (valid : Number low high text) : splitSign text = (false, text) := by
  obtain ⟨c, rest, rfl, digit⟩ := number_digit valid
  have notSpace : isSpace c = false := by
    simp only [Char.isDigit, Bool.and_eq_true, decide_eq_true_eq] at digit
    have low : 48 ≤ c.toNat := digit.1
    have other : c ≠ ' ' := by
      rintro rfl
      exact absurd low (by decide)
    simp [isSpace, other]
    omega
  unfold splitSign
  rw [List.dropWhile_cons_of_neg (by simp [notSpace])]
  split
  next same =>
    obtain ⟨rfl, -⟩ := List.cons.inj same
    exact absurd digit (by decide)
  next same =>
    obtain ⟨rfl, -⟩ := List.cons.inj same
    exact absurd digit (by decide)
  next => rfl

theorem atoi_number (valid : Number low high text) (fits : high ≤ 2147483647) :
    atoi text = some (number text : Int) := by
  have bound := number_le valid
  rw [atoi, splitSign_number valid]
  simp only [readNat_number valid, Bool.false_eq_true, if_false, Option.elim_some, CInt.checked_eq_some,
    CInt.InRange, and_true]
  omega

theorem orElse_number (valid : Number low high text) (default : List Char) : orElse text default = text := by
  obtain ⟨c, rest, rfl, _⟩ := number_digit valid
  rfl

theorem greaterThanZero_number (valid : Number low high text) :
    greaterThanZero text = decide (0 < number text) := by
  obtain ⟨c, rest, rfl, digit⟩ := number_digit valid
  have sign : (c :: rest).head? ≠ some '-' := by
    rintro ⟨rfl⟩
    exact absurd digit (by decide)
  simp [greaterThanZero, readWhole, readInt_unsigned sign, readNat_number valid]

end Numbers

/-! ## What the process reads -/

section Read

variable {long : LongWidth} {cfg : List Char} {s : StreamSection} {argv : List (List Char)}

theorem applyArgs_value {t : Settings} {o : ValueOption} {v : List Char} {update : Settings → Settings}
    {args : List Arg} {result : Option Settings} (given : o.update long v = some update)
    (rest : applyArgs long (update t) args = result) : applyArgs long t (.value o v :: args) = result := by
  rw [applyArgs_cons, Arg.update, given]
  exact rest

def appendArg (wanted : Bool) (arg : Arg) : List Arg := if wanted then [arg] else []

theorem appendParam_words (wanted : Bool) (arg : Arg) :
    appendParam wanted arg.words = (appendArg wanted arg).flatMap Arg.words := by
  cases wanted <;> simp [appendParam, appendArg]

theorem applyArgs_appendArg {t : Settings} {wanted : Bool} {arg : Arg} {update : Settings → Settings}
    {args : List Arg} {result : Option Settings} (given : arg.update long = some update)
    (rest : applyArgs long (if wanted then update t else t) args = result) :
    applyArgs long t (appendArg wanted arg ++ args) = result := by
  cases wanted with
  | false => exact rest
  | true =>
    have here : appendArg true arg ++ args = arg :: args := rfl
    rw [here, applyArgs_cons, given]
    exact rest

def danteArgs (cfg : List Char) (s : StreamSection) : List Arg :=
  [.value .profile "dante".toList, .value .listen s.iface, .value .aes67Base s.aes67Base,
    .value .rtpPort s.rtpPort, .value .chPerFlow s.chPerFlow, .value .ptpDomain s.ptpDomain,
    .value .pt s.payloadType, .value .ssrc s.ssrc, .value .ttl s.ttl, .value .name (orElse s.name cfg)] ++
  appendArg (s.gmid ≠ []) (.value .gmid s.gmid)

def plainArgs (cfg : List Char) (s : StreamSection) : List Arg :=
  [.value .listen s.iface, .value .udp (s.mcastAddr ++ ":".toList ++ s.mcastPort), .value .rate s.rate,
    .value .pt s.payloadType, .value .ssrc s.ssrc, .value .ttl s.ttl, .value .name (orElse s.name cfg)] ++
  appendArg (0 < number s.plcXfade) (.value .plcXfade s.plcXfade) ++
  appendArg (0 < number s.plcFadePkts) (.value .plcFade s.plcFadePkts)

def commonArgs (s : StreamSection) : List Arg :=
  appendArg (orElse s.sap "1".toList ≠ "1".toList) (.flag .noSap) ++
  appendArg (s.egressIface ≠ []) (.value .iface s.egressIface)

theorem startStream_words (valid : s.Valid) (started : startStream cfg s = some argv) :
    argv = ((if s.dante then danteArgs cfg s else plainArgs cfg s) ++ commonArgs s).flatMap Arg.words := by
  have dante : danteCommand cfg s = (danteArgs cfg s).flatMap Arg.words := by
    have gmid := appendParam_words (s.gmid ≠ []) (.value .gmid s.gmid)
    simp only [danteCommand, danteArgs, orElse_number valid.rtpPort, orElse_number valid.chPerFlow,
      orElse_number valid.ptpDomain, List.flatMap_append, ← gmid]
    rfl
  have plain : plainCommand cfg s = (plainArgs cfg s).flatMap Arg.words := by
    have xfade := appendParam_words (0 < number s.plcXfade) (.value .plcXfade s.plcXfade)
    have fade := appendParam_words (0 < number s.plcFadePkts) (.value .plcFade s.plcFadePkts)
    simp only [plainCommand, plainArgs, orElse_number valid.plcXfade, orElse_number valid.plcFadePkts,
      greaterThanZero_number valid.plcXfade, greaterThanZero_number valid.plcFadePkts, List.flatMap_append,
      ← xfade, ← fade]
    rfl
  have sap := appendParam_words (orElse s.sap "1".toList ≠ "1".toList) (.flag .noSap)
  have egress := appendParam_words (s.egressIface ≠ []) (.value .iface s.egressIface)
  simp only [startStream, Option.ite_none_left_eq_some, Option.some.injEq] at started
  obtain ⟨_, _, rfl⟩ := started
  rw [List.flatMap_append, commonArgs, List.flatMap_append, ← sap, ← egress, ← List.append_assoc]
  cases s.dante with
  | true =>
    rw [if_pos rfl, if_pos rfl, dante]
    rfl
  | false =>
    rw [if_neg Bool.false_ne_true, if_neg Bool.false_ne_true, plain]
    rfl

section Updates

variable {low high : Nat} {text : List Char}

theorem byte_number (n : Nat) : UInt8.ofInt n = UInt8.ofNat n := by
  apply UInt8.toNat.inj
  simp [UInt8.ofInt]
  omega

theorem word_number (n : Nat) : UInt16.ofInt n = UInt16.ofNat n := by
  apply UInt16.toNat.inj
  simp [UInt16.ofInt]
  omega

theorem update_pt (valid : Number low high text) (fits : high ≤ 2147483647) :
    ValueOption.pt.update long text =
      some fun t => { t with pt := UInt8.ofNat (number text), ptSet := true } := by
  simp only [ValueOption.update, atoi_number valid fits, Option.map_some, byte_number]

theorem update_rtpPort (valid : Number low high text) (fits : high ≤ 2147483647) :
    ValueOption.rtpPort.update long text = some fun t => { t with rtpPort := UInt16.ofNat (number text) } := by
  simp only [ValueOption.update, atoi_number valid fits, Option.map_some, word_number]

theorem update_rate (valid : text = "48000".toList ∨ text = "96000".toList) :
    ValueOption.rate.update long text = some fun t => { t with rate := number text } := by
  rcases valid with rfl | rfl <;> rfl

theorem update_int (long : LongWidth) {o : ValueOption} {f : Int → Settings → Settings}
    (valid : Number low high text) (fits : high ≤ 2147483647)
    (reads : o.update long text = (atoi text).map f) : o.update long text = some (f (number text)) := by
  rw [reads, atoi_number valid fits, Option.map_some]

end Updates

theorem applyArgs_common (t : Settings) : applyArgs long t (commonArgs s) = some
    { t with
      doSap := if orElse s.sap "1".toList = "1".toList then t.doSap else false
      ifaceEgress := if s.egressIface = [] then t.ifaceEgress else some s.egressIface } := by
  have sap : (Arg.flag .noSap).update long = some fun t => { t with doSap := false } := rfl
  have egress : (Arg.value .iface s.egressIface).update long =
      some fun t => { t with ifaceEgress := some s.egressIface } := rfl
  rw [commonArgs, ← List.append_nil (appendArg (s.egressIface ≠ []) _)]
  refine applyArgs_appendArg sap (applyArgs_appendArg egress ?_)
  rw [applyArgs_nil]
  generalize orElse s.sap "1".toList = sap
  by_cases announced : sap = "1".toList <;> by_cases unset : s.egressIface = []
  next =>
    rw [if_pos announced, if_pos unset, decide_eq_false (not_not.mpr announced),
      decide_eq_false (not_not.mpr unset)]
    rfl
  next =>
    rw [if_pos announced, if_neg unset, decide_eq_false (not_not.mpr announced), decide_eq_true unset]
    rfl
  next =>
    rw [if_neg announced, if_pos unset, decide_eq_true announced, decide_eq_false (not_not.mpr unset)]
    rfl
  next =>
    rw [if_neg announced, if_neg unset, decide_eq_true announced, decide_eq_true unset]
    rfl

theorem applyArgs_dante (valid : s.Valid) (dante : s.dante = true) :
    applyArgs long {} (danteArgs cfg s ++ commonArgs s) = some (s.settings long cfg) := by
  have gmid : (Arg.value .gmid s.gmid).update long = some fun t => { t with gmid := s.gmid } := rfl
  simp only [danteArgs, List.cons_append, List.nil_append]
  refine applyArgs_value (v := "dante".toList) rfl ?_
  refine applyArgs_value rfl ?_
  refine applyArgs_value rfl ?_
  refine applyArgs_value (update_rtpPort valid.rtpPort (by decide)) ?_
  refine applyArgs_value (update_int long valid.chPerFlow (by decide) rfl) ?_
  refine applyArgs_value (update_int long valid.ptpDomain (by decide) rfl) ?_
  refine applyArgs_value (update_pt valid.payloadType (by decide)) ?_
  refine applyArgs_value rfl ?_
  refine applyArgs_value (update_int long valid.ttl (by decide) rfl) ?_
  refine applyArgs_value rfl ?_
  dsimp only
  refine applyArgs_appendArg gmid ?_
  rw [applyArgs_common, StreamSection.settings, if_pos dante]
  by_cases unset : s.gmid = []
  next =>
    rw [if_pos unset, decide_eq_false (not_not.mpr unset)]
    rfl
  next =>
    rw [if_neg unset, decide_eq_true unset]
    rfl

-- A number that is not passed on is the default.
theorem positive_or_default (n : Nat) {f : Nat → Settings → Settings} {t : Settings}
    (default : f 0 t = t) : (if decide (0 < n) then f n t else t) = f n t := by
  rcases Nat.eq_zero_or_pos n with rfl | positive
  next => exact default.symm
  next => rw [decide_eq_true positive, if_pos rfl]

theorem applyArgs_plain (valid : s.Valid) (plain : s.dante = false) :
    applyArgs long {} (plainArgs cfg s ++ commonArgs s) = some (s.settings long cfg) := by
  have xfade : (Arg.value .plcXfade s.plcXfade).update long =
      some fun t => { t with plcXfade := number s.plcXfade } :=
    update_int (o := .plcXfade) (f := fun n t => { t with plcXfade := n }) long valid.plcXfade (by decide) rfl
  have fade : (Arg.value .plcFade s.plcFadePkts).update long =
      some fun t => { t with plcFade := number s.plcFadePkts } :=
    update_int (o := .plcFade) (f := fun n t => { t with plcFade := n }) long valid.plcFadePkts (by decide) rfl
  rw [plainArgs, List.append_assoc, List.append_assoc]
  simp only [List.cons_append, List.nil_append]
  refine applyArgs_value rfl ?_
  refine applyArgs_value rfl ?_
  refine applyArgs_value (update_rate valid.rate) ?_
  refine applyArgs_value (update_pt valid.payloadType (by decide)) ?_
  refine applyArgs_value rfl ?_
  refine applyArgs_value (update_int long valid.ttl (by decide) rfl) ?_
  refine applyArgs_value rfl ?_
  dsimp only
  refine applyArgs_appendArg xfade ?_
  rw [positive_or_default (number s.plcXfade) (f := fun n t => { t with plcXfade := n }) rfl]
  refine applyArgs_appendArg fade ?_
  rw [positive_or_default (number s.plcFadePkts) (f := fun n t => { t with plcFade := n }) rfl]
  rw [applyArgs_common, StreamSection.settings, plain]
  rfl

-- Whatever the texts of a section are, none of them is taken for an option.
theorem startStream_settings (long : LongWidth) (valid : s.Valid) (started : startStream cfg s = some argv) :
    parseArgs long {} argv = .settings (s.settings long cfg) := by
  have words := @parseArgs_words long {}
    ((if s.dante then danteArgs cfg s else plainArgs cfg s) ++ commonArgs s) []
  rw [List.append_nil, ← startStream_words valid started] at words
  rw [words]
  cases dante : s.dante with
  | true =>
    rw [if_pos rfl, applyArgs_dante valid dante]
    exact parseArgs.eq_1 long _
  | false =>
    rw [if_neg Bool.false_ne_true, applyArgs_plain valid dante]
    exact parseArgs.eq_1 long _

end Read

/-! ## What the process does -/

section Serve

variable {host : Host} {env : Surroundings} {cfg : List Char} {s : StreamSection} {argv : List (List Char)}

theorem number_noColon {low high : Nat} {text : List Char} (valid : Number low high text) : ':' ∉ text := by
  intro member
  have read := readNat_number valid
  simp only [readNat, Option.ite_none_left_eq_some, Option.some.injEq, Prod.mk.injEq] at read
  exact absurd (List.dropWhile_eq_nil_iff.mp read.2.2 ':' member) (by decide)

-- The port is what stands behind the last colon, so the host may hold colons of its own.
theorem splitLastColon_joined (ip : List Char) {port : List Char} (noColon : ':' ∉ port) :
    splitLastColon (ip ++ ":".toList ++ port) = some (ip, port) := by
  have turned : (ip ++ ":".toList ++ port).reverse = port.reverse ++ ':' :: ip.reverse := by simp
  have other : ∀ c ∈ port.reverse, decide (c ≠ ':') = true := fun c member =>
    decide_eq_true fun same => noColon (same ▸ List.mem_reverse.mp member)
  unfold splitLastColon
  rw [turned, List.dropWhile_append_of_pos other, List.takeWhile_append_of_pos other,
    List.dropWhile_cons_of_neg (by simp), List.takeWhile_cons_of_neg (by simp)]
  simp

theorem parseIpport_joined {ipcap : Nat} {ip port : List Char} (named : ip ≠ [])
    (valid : Number 0 65535 port) : parseIpport ipcap (ip ++ ":".toList ++ port) =
      some (if ipcap ≤ ip.length ∨ number port = 0 then none else some (ip, UInt16.ofNat (number port))) := by
  have bound := (number_le valid).2
  have some_ip : ip.length ≠ 0 := by simpa using named
  simp only [parseIpport, splitLastColon_joined ip (number_noColon valid), atoi_number valid (by decide),
    Option.map_some, word_number, some_ip, false_or]
  by_cases long : ipcap ≤ ip.length
  next => simp [long]
  next =>
    by_cases zero : number port = 0
    next => simp [zero, long]
    next => simpa [zero, long] using bound

theorem danteTable_accepted (modes : host.LibreacModes) {o : Options} {k : Nat} (width : o.chPerFlow = k)
    (positive : 0 < k) (narrow : k ≤ 40) :
    ∃ n flows, 0 ≤ n ∧
      danteBuildFlows reacMaxChannels (o.mode host).nChannels o.chPerFlow o.payloadType o.ssrc =
        some (n, flows) := by
  obtain ⟨rate, _, mode⟩ := modes.known (if o.profileDante then 48000 else o.rate)
  have few : flowCount reacMaxChannels k ≤ reacMaxChannels := flowCount_le positive
  refine ⟨flowCount reacMaxChannels k, danteTable reacMaxChannels k o.payloadType o.ssrc, by omega, ?_⟩
  rw [Options.mode, mode, width, broadcastMode]
  dsimp only
  rw [danteBuildFlows_defined _ _ _ (by decide) positive (by simp only [reacMaxChannels]; omega),
    if_neg (by omega)]

theorem startStream_some (started : startStream cfg s = some argv) :
    s.iface ≠ [] ∧ (if s.dante then s.aes67Base else s.mcastAddr) ≠ [] := by
  simp only [startStream, Option.ite_none_left_eq_some] at started
  exact ⟨fun missing => started.1 (.inr missing), started.2.1⟩

theorem captureRun_defined (env : Surroundings) {σ : Type} {S : Set Descriptor}
    {emit : Pipeline σ → List UInt8 → Trace} {round : Trace} (emits : Emits S emit round)
    (wanted : List UInt8 → Bool) (pl : Pipeline σ) (ifname : List Char) :
    ∃ run, captureRun env wanted emit round pl ifname = some run := by
  unfold captureRun
  cases env.capture ifname with
  | none => exact ⟨_, rfl⟩
  | some script =>
    obtain ⟨s, ended, _⟩ := capturedLoop_sends emits env.gStop (.start env.long wanted pl script)
    simp only [ended, Option.bind_eq_bind, Option.bind_some]
    exact ⟨_, rfl⟩

theorem runListen_defined (host : Host) (env : Surroundings) (o : Options) (launch : PlainLaunch)
    (ifname : List Char) : ∃ run, runListen host o launch env ifname = some run := by
  unfold runListen
  cases env.capture ifname with
  | none => exact ⟨_, rfl⟩
  | some script =>
    have serving := plainRound_uses (B := {.media 0}) rfl (plainAnnouncement host o)
    obtain ⟨s, ended, _⟩ := capturedLoop_sends serving.emits env.gStop
      (.start env.long (frameWanted launch.bcastOnly)
        (listenStart host o launch env.long ifname script).live.pl script)
    cases loops : env.eventLoop with
    | some events =>
      simp only [listenLoop, loops, Option.bind_eq_bind, Option.bind_some]
      exact ⟨_, rfl⟩
    | none =>
      have here : listenLoop launch env (plainRound (plainAnnouncement host o))
          (listenStart host o launch env.long ifname script) =
            some (.used .capture (.nonblock true) :: .used .capture (.nonblock false) :: s.trace,
              s.live.passed) := by
        simp only [listenLoop, loops]
        exact congrArg _ ended
      simp only [here, Option.bind_eq_bind, Option.bind_some]
      exact ⟨_, rfl⟩

theorem runPlain_defined (host : Host) (env : Surroundings) (o : Options) (launch : PlainLaunch)
    {ifname : List Char} (noTone : launch.genTone = false) (listens : launch.iface = some ifname) :
    ∃ run, runPlain host o launch env = some run := by
  obtain ⟨inner, ran⟩ := runListen_defined host env o launch ifname
  unfold runPlain plainInner
  simp only [noTone, listens, ran, Bool.false_eq_true, if_false, Option.bind_eq_bind, Option.bind_some]
  split <;> exact ⟨_, rfl⟩

/-- How many packets the frames make in all flows, which `run_dante` counts in an `int`. -/
def danteTotal (host : Host) (o : Options) (env : Surroundings) (frames : List (List UInt8)) : Nat :=
  match danteFlows host o with
  | none => 0
  | some flows => ∑ i ∈ Finset.range flows.length, (flowPackets host o env.now env.memory i frames).length

theorem runDante_defined (env : Surroundings) (modes : host.LibreacModes) {o : Options} (launch : DanteLaunch)
    {ifname : List Char} {k : Nat} (width : o.chPerFlow = k) (positive : 0 < k) (narrow : k ≤ 40)
    (noReplay : launch.pcap = none) (listens : launch.iface = some ifname) (sends : launch.countOnly = false)
    (few : danteTotal host o env (reacFrames (untilStop env.gStop 0 ((env.capture ifname).getD []))) ≤
      2147483647) :
    ∃ run, runDante host o launch env = some run ∧ run.rc ≠ 2 := by
  obtain ⟨n, flows, accepted, built⟩ := danteTable_accepted modes width positive narrow
  have defined : ∃ run, runDante host o launch env = some run := by
    simp only [runDante, built, Option.bind_eq_bind, Option.bind_some, if_neg (not_lt.mpr accepted)]
    split
    next => exact ⟨_, rfl⟩
    next whole =>
      have emits := danteRound_emits host o launch flows
        ((danteWanted launch flows).takeWhile (danteFlowOpen host o)).length
      obtain ⟨run, fed⟩ := captureRun_defined env emits (fun _ => true)
        (dantePipelineOf (o.mode host) o flows env) ifname
      have opened : danteFlows host o = some flows := by
        obtain ⟨_, all⟩ := takeWhile_short whole
        rw [danteWanted_sending sends] at all
        simp only [danteFlows, built, Option.bind_eq_bind, Option.bind_some, if_neg (not_lt.mpr accepted), all,
          if_true]
      have counted : CInt.checked run.pl.pcmCtx.sent.length = some (run.pl.pcmCtx.sent.length : Int) := by
        have source : run.fed = reacFrames (untilStop env.gStop 0 ((env.capture ifname).getD [])) :=
          (captureRun_fed false fed).trans (List.filter_eq_self.mpr fun _ _ => rfl)
        have total : (danteSent (dantePipelineOf (o.mode host) o flows env) run.fed).length = _ :=
          dantePipelineOf_count modes opened run.fed
        rw [source] at total
        rw [danteTotal, opened] at few
        have sent : run.pl.pcmCtx.sent.length =
            (danteSent (dantePipelineOf (o.mode host) o flows env) run.fed).length := by
          rw [← (captureRun_sends emits (by simp [danteSockets]) fed).1.pipeline]
          rfl
        rw [sent, source, total]
        exact CInt.checked_eq_some.mpr ⟨⟨by omega, Int.ofNat_le.mpr few⟩, rfl⟩
      simp only [danteFeed, noReplay, listens, fed, Option.bind_some, counted]
      exact ⟨_, rfl⟩
  obtain ⟨run, done⟩ := defined
  refine ⟨run, done, fun refused => ?_⟩
  obtain ⟨m, table, again, ⟨refuses, _⟩ | ⟨_, _, _, _, rfl⟩ | ⟨_, source, fed⟩⟩ := runDante_cases done
  next =>
    rw [built, Option.some.injEq, Prod.mk.injEq] at again
    omega
  next => simp at refused
  next =>
    have code := (danteFeed_sends (danteRound_emits host o launch table _) fed.fed).code
    rw [fed.outcome] at refused
    simp only at refused
    omega

theorem settings_sends (long : LongWidth) (cfg : List Char) (s : StreamSection) :
    (s.settings long cfg).Sends := by
  unfold StreamSection.settings
  split <;> exact ⟨rfl, rfl, rfl⟩

theorem settings_profile (long : LongWidth) (cfg : List Char) (s : StreamSection) :
    (s.settings long cfg).profileDante = s.dante := by
  unfold StreamSection.settings
  split
  next dante => exact dante.symm
  next plain => exact (Bool.eq_false_of_not_eq_true plain).symm

theorem settings_source (long : LongWidth) (cfg : List Char) (s : StreamSection) :
    (s.settings long cfg).pcap = none ∧ (s.settings long cfg).iface = some s.iface ∧
      (s.settings long cfg).genTone = false ∧ (s.settings long cfg).rateAuto = false := by
  unfold StreamSection.settings
  split <;> exact ⟨rfl, rfl, rfl, rfl⟩

theorem resolveRate_given (env : Surroundings) {t : Settings} (given : t.rateAuto = false) :
    resolveRate env t = (t, []) := by
  unfold resolveRate
  split
  next => simp [given]
  next => rfl

-- What arrives on an interface before the process is stopped or its socket fails.
def arrivals (env : Surroundings) (ifname : List Char) : List (List UInt8) :=
  reacFrames (untilStop env.gStop 0 ((env.capture ifname).getD []))

theorem danteSection_served (env : Surroundings) (modes : host.LibreacModes) (valid : s.Valid)
    (started : startStream cfg s = some argv) (dante : s.dante = true)
    (few : danteTotal host (s.settings env.long cfg).danteOptions env (arrivals env s.iface) ≤ 2147483647) :
    let t := s.settings env.long cfg
    ∃ sent, mainProcess host env argv = some ⟨sent.rc, sent.trace, []⟩ ∧ sent.rc ≠ 2 ∧
      (sent.rc = 0 → ∃ flows, danteFlows host t.danteOptions = some flows ∧
        DanteDelivery host t.danteOptions (t.danteLaunch false) env flows sent) := by
  obtain ⟨noReplay, listens, -, noDetect⟩ := settings_source env.long cfg s
  have profile := (settings_profile env.long cfg s).trans dante
  have width : (s.settings env.long cfg).danteOptions.chPerFlow = number s.chPerFlow := by
    rw [StreamSection.settings, if_pos dante]
    rfl
  have inRange := number_le valid.chPerFlow
  obtain ⟨sent, runs, accepted⟩ := runDante_defined env modes
    ((s.settings env.long cfg).danteLaunch false) width (by omega) inRange.2 noReplay listens rfl few
  have done : mainProcess host env argv = some ⟨sent.rc, sent.trace, []⟩ := by
    rw [mainProcess_settings (startStream_settings env.long valid started), resolveRate_given env noDetect,
      dispatch_sends (settings_sends env.long cfg s), if_pos profile, sendDante, if_neg (by simp [listens]),
      runs]
    rfl
  have delivery := runDante_delivers rfl runs
  refine ⟨sent, done, accepted, fun complete => ?_⟩
  cases opened : danteFlows host (s.settings env.long cfg).danteOptions with
  | none =>
    rw [opened] at delivery
    simp only at delivery
    omega
  | some flows =>
    rw [opened] at delivery
    exact ⟨flows, rfl, delivery⟩

theorem runPlain_code {o : Options} {launch : PlainLaunch} {ifname : List Char} {sent : PlainRun}
    (listens : launch.iface = some ifname) (runs : runPlain host o launch env = some sent) :
    sent.rc ≠ 2 ∧ (sent.rc = 0 → PlainDelivery host o launch env sent) := by
  obtain ⟨-, delivery⟩ := runPlain_delivers runs
  split at delivery
  next =>
    refine ⟨fun refused => ?_, fun _ => delivery⟩
    obtain ok | failed | ⟨_, sourceless, _⟩ := delivery.code
    next => exact absurd (ok.symm.trans refused) (by decide)
    next => exact absurd (failed.1.symm.trans refused) (by decide)
    next => exact absurd (listens.symm.trans sourceless.2.1) (Option.some_ne_none _)
  next =>
    obtain ⟨code, -⟩ := delivery
    exact ⟨by rw [code]; decide, fun complete => absurd (code.symm.trans complete) (by decide)⟩

theorem plainSection_served (env : Surroundings) (valid : s.Valid) (started : startStream cfg s = some argv)
    (plain : s.dante = false) :
    let t := s.settings env.long cfg
    ∃ run, mainProcess host env argv = some run ∧
      (run.rc = 2 ↔ number s.mcastPort = 0 ∨ 64 ≤ s.mcastAddr.length) ∧
      (run.rc = 0 → ∃ sent, run = ⟨sent.rc, sent.trace, []⟩ ∧
        PlainDelivery host (t.options s.mcastAddr (UInt16.ofNat (number s.mcastPort)))
          (t.plainLaunch (s.mcastAddr ++ ":".toList ++ s.mcastPort)) env sent) := by
  obtain ⟨-, listens, noTone, noDetect⟩ := settings_source env.long cfg s
  have profile := (settings_profile env.long cfg s).trans plain
  have udp : (s.settings env.long cfg).udp = some (s.mcastAddr ++ ":".toList ++ s.mcastPort) := by
    rw [StreamSection.settings, plain]
    rfl
  have named : s.mcastAddr ≠ [] := by simpa [plain] using (startStream_some started).2
  have dispatched : mainProcess host env argv = sendPlain host (s.settings env.long cfg) env := by
    rw [mainProcess_settings (startStream_settings env.long valid started), resolveRate_given env noDetect,
      dispatch_sends (settings_sends env.long cfg s), if_neg (by simp [profile])]
    exact Option.map_id'
  simp only [dispatched, sendPlain, udp, parseIpport_joined named valid.mcastPort, Option.bind_eq_bind,
    Option.bind_some]
  by_cases refused : 64 ≤ s.mcastAddr.length ∨ number s.mcastPort = 0
  next =>
    rw [if_pos refused]
    exact ⟨_, rfl, ⟨fun _ => refused.symm, fun _ => rfl⟩, fun complete => by cases complete⟩
  next =>
    rw [if_neg refused]
    obtain ⟨sent, runs⟩ := runPlain_defined host env
      ((s.settings env.long cfg).options s.mcastAddr (UInt16.ofNat (number s.mcastPort)))
      ((s.settings env.long cfg).plainLaunch (s.mcastAddr ++ ":".toList ++ s.mcastPort)) noTone listens
    obtain ⟨accepted, delivers⟩ := runPlain_code listens runs
    simp only [runs, Option.bind_some]
    exact ⟨_, rfl, ⟨fun code => absurd code accepted, fun refuses => absurd refuses.symm refused⟩,
      fun complete => ⟨sent, rfl, delivers complete⟩⟩

/-- The process reads back what the section asks for and serves it or fails. It refuses a section only for its
port or the length of its group. With the Dante profile the packets have to be few enough for their counter. -/
theorem startStream_serves (env : Surroundings) (modes : host.LibreacModes) (valid : s.Valid)
    (started : startStream cfg s = some argv)
    (few : s.dante = true →
      danteTotal host (s.settings env.long cfg).danteOptions env (arrivals env s.iface) ≤ 2147483647) :
    let t := s.settings env.long cfg
    ∃ run, parseArgs env.long {} argv = .settings t ∧ mainProcess host env argv = some run ∧
      (run.rc = 2 ↔ s.dante = false ∧ (number s.mcastPort = 0 ∨ 64 ≤ s.mcastAddr.length)) ∧
      (run.rc = 0 →
        if s.dante then
          ∃ flows sent, danteFlows host t.danteOptions = some flows ∧ run = ⟨sent.rc, sent.trace, []⟩ ∧
            DanteDelivery host t.danteOptions (t.danteLaunch false) env flows sent
        else
          let o := t.options s.mcastAddr (UInt16.ofNat (number s.mcastPort))
          ∃ sent, run = ⟨sent.rc, sent.trace, []⟩ ∧
            PlainDelivery host o (t.plainLaunch (s.mcastAddr ++ ":".toList ++ s.mcastPort)) env sent) := by
  have parsed := startStream_settings env.long valid started
  cases dante : s.dante with
  | true =>
    obtain ⟨sent, done, accepted, delivers⟩ := danteSection_served env modes valid started dante (few dante)
    refine ⟨_, parsed, done, by simpa using accepted, fun complete => ?_⟩
    obtain ⟨flows, opened, delivery⟩ := delivers complete
    exact ⟨flows, sent, opened, rfl, delivery⟩
  | false =>
    obtain ⟨run, done, code, delivers⟩ := plainSection_served env valid started dante
    exact ⟨run, parsed, done, by simpa using code, delivers⟩

-- Four frames fill a packet of each of ten flows.
theorem exampleStream_runs : ∃ argv run, startStream "stage".toList exampleStream = some argv ∧
    mainProcess libreacHost busySurroundings argv = some run ∧ run.rc = 0 ∧ mediaDatagrams run.trace = 10 := by
  have sent : ((startStream "stage".toList exampleStream).bind (mainProcess libreacHost busySurroundings)).map
      (fun run => (run.rc, mediaDatagrams run.trace)) = some (0, 10) := by decide +kernel
  obtain ⟨run, ran, results⟩ := Option.map_eq_some_iff.mp sent
  obtain ⟨argv, started, done⟩ := Option.bind_eq_some_iff.mp ran
  exact ⟨argv, run, started, done, Prod.mk.inj results⟩

theorem startStream_serves_example :
    let t := exampleStream.settings .long64 "stage".toList
    ∃ argv run flows sent, startStream "stage".toList exampleStream = some argv ∧
      parseArgs .long64 {} argv = .settings t ∧ mainProcess libreacHost busySurroundings argv = some run ∧
      mediaDatagrams run.trace = 10 ∧ danteFlows libreacHost t.danteOptions = some flows ∧
      run = ⟨sent.rc, sent.trace, []⟩ ∧
      DanteDelivery libreacHost t.danteOptions (t.danteLaunch false) busySurroundings flows sent := by
  obtain ⟨argv, run, started, done, complete, ten⟩ := exampleStream_runs
  have few : exampleStream.dante = true →
      danteTotal libreacHost (exampleStream.settings .long64 "stage".toList).danteOptions busySurroundings
        (arrivals busySurroundings "eth0".toList) ≤ 2147483647 := by decide +kernel
  obtain ⟨run', parsed, done', _, serves⟩ :=
    startStream_serves busySurroundings libreacHost_modes exampleStream_valid started few
  obtain rfl := Option.some.inj (done.symm.trans done')
  obtain ⟨flows, sent, opened, same, delivery⟩ := serves complete
  exact ⟨argv, run, flows, sent, started, parsed, done, ten, opened, same, delivery⟩

end Serve

end ReacAes67
