import ReacAes67.Announcement
import ReacAes67.PcapSource
import ReacAes67.Shared.CInt

set_option autoImplicit false

/-!
# The command line

`main` goes through its arguments once. An option takes the argument after it,
whatever that says, and an argument that is not an option ends the program.
-/

namespace ReacAes67

open TextLines

-- White space and a sign, as `strtol` and `strtoul` skip them.
def splitSign (text : List Char) : Bool × List Char :=
  match text.dropWhile isSpace with
  | '-' :: rest => (true, rest)
  | '+' :: rest => (false, rest)
  | rest => (false, rest)

-- The result for a number that is no `int` is undefined.
def atoi (text : List Char) : Option Int :=
  let (negative, digits) := splitSign text
  let value : Int := (readNat digits).elim 0 fun number => number.1
  CInt.checked (if negative then -value else value)

def hexDigit (c : Char) : Option Nat :=
  if c.isDigit then some (c.toNat - 48)
  else if 97 ≤ c.toNat ∧ c.toNat ≤ 102 then some (c.toNat - 87)
  else if 65 ≤ c.toNat ∧ c.toNat ≤ 70 then some (c.toNat - 55)
  else none

def readHex (text : List Char) : Nat :=
  (text.takeWhile fun c => (hexDigit c).isSome).foldl (fun value c => value * 16 + (hexDigit c).getD 0) 0

def skipHexPrefix : List Char → List Char
  | '0' :: x :: c :: rest =>
    if (x = 'x' ∨ x = 'X') ∧ (hexDigit c).isSome then c :: rest else '0' :: x :: c :: rest
  | text => text

-- `(uint32_t)strtoul(text, NULL, 16)`: a number too large for `unsigned long` is read as the largest.
def strtoulHex (long : LongWidth) (text : List Char) : UInt32 :=
  let (negative, digits) := splitSign text
  let value := readHex (skipHexPrefix digits)
  if value ≥ 2 ^ long.bits then 0xffffffff
  else if negative then -UInt32.ofNat value
  else UInt32.ofNat value

-- What stands before and behind the last colon.
def splitLastColon (s : List Char) : Option (List Char × List Char) :=
  match s.reverse.dropWhile (· ≠ ':') with
  | [] => none
  | _ :: host => some (host.reverse, (s.reverse.takeWhile (· ≠ ':')).reverse)

-- The inner `none` stands for the result -1.
def parseIpport (ipcap : Nat) (s : List Char) : Option (Option (List Char × UInt16)) :=
  match splitLastColon s with
  | none => some none
  | some (ip, port) =>
    if ip.length = 0 ∨ ip.length ≥ ipcap then some none
    else (atoi port).map fun p => if p ≤ 0 ∨ p > 65535 then none else some (ip, UInt16.ofInt p)

/-- The variables of `main` that its options set. -/
structure Settings where
  pcap : Option (List Char) := none
  iface : Option (List Char) := none
  udp : Option (List Char) := none
  name : Option (List Char) := none
  origin : List Char := "0.0.0.0".toList
  rate : Int := 48000
  rateAuto : Bool := false
  doDump : Bool := false
  doCount : Bool := false
  doSdp : Bool := false
  ttl : Int := 1
  plcXfade : Int := 0
  plcFade : Int := 0
  doSap : Bool := true
  genTone : Bool := false
  toneFreq : Int := 440
  toneDetune : Int := 0
  ifaceEgress : Option (List Char) := none
  pt : UInt8 := 97
  ssrc : UInt32 := 0x11223344
  profileDante : Bool := false
  ptSet : Bool := false
  ptpDomain : Int := 0
  chPerFlow : Int := 8
  mediaDscp : Int := 34
  aes67Base : List Char := "239.69.10.0".toList
  gmid : List Char := placeholderClock
  rtpPort : UInt16 := 5004
  bcastOnly : Bool := false

inductive ValueOption where
  | pcap | listen | udp | rate | pt | ssrc | ttl | name | origin | plcXfade | plcFade | toneFreq | toneDetune
  | iface | profile | aes67Base | rtpPort | ptpDomain | gmid | chPerFlow | mediaDscp
deriving DecidableEq, Repr

inductive Flag where
  | genTone | noSap | sap | bcastOnly | dante | dumpSamples | countRtp | printSdp
deriving DecidableEq, Repr

def ValueOption.text : ValueOption → List Char
  | .pcap => "--pcap".toList
  | .listen => "--listen".toList
  | .udp => "--udp".toList
  | .rate => "--rate".toList
  | .pt => "--pt".toList
  | .ssrc => "--ssrc".toList
  | .ttl => "--ttl".toList
  | .name => "--name".toList
  | .origin => "--origin".toList
  | .plcXfade => "--plc-xfade".toList
  | .plcFade => "--plc-fade".toList
  | .toneFreq => "--tone-freq".toList
  | .toneDetune => "--tone-detune".toList
  | .iface => "--iface".toList
  | .profile => "--profile".toList
  | .aes67Base => "--aes67-base".toList
  | .rtpPort => "--rtp-port".toList
  | .ptpDomain => "--ptp-domain".toList
  | .gmid => "--gmid".toList
  | .chPerFlow => "--ch-per-flow".toList
  | .mediaDscp => "--media-dscp".toList

def Flag.text : Flag → List Char
  | .genTone => "--gen-tone".toList
  | .noSap => "--no-sap".toList
  | .sap => "--sap".toList
  | .bcastOnly => "--bcast-only".toList
  | .dante => "--dante".toList
  | .dumpSamples => "--dump-samples".toList
  | .countRtp => "--count-rtp".toList
  | .printSdp => "--print-sdp".toList

-- What an option does with its argument, `none` where C leaves the number undefined.
def ValueOption.update (long : LongWidth) (v : List Char) : ValueOption → Option (Settings → Settings)
  | .pcap => some fun s => { s with pcap := some v }
  | .listen => some fun s => { s with iface := some v }
  | .udp => some fun s => { s with udp := some v }
  | .rate =>
    if v = "auto".toList then some fun s => { s with rateAuto := true }
    else (atoi v).map fun n s => { s with rate := n }
  | .pt => (atoi v).map fun n s => { s with pt := UInt8.ofInt n, ptSet := true }
  | .ssrc => some fun s => { s with ssrc := strtoulHex long v }
  | .ttl => (atoi v).map fun n s => { s with ttl := n }
  | .name => some fun s => { s with name := some v }
  | .origin => some fun s => { s with origin := v }
  | .plcXfade => (atoi v).map fun n s => { s with plcXfade := n }
  | .plcFade => (atoi v).map fun n s => { s with plcFade := n }
  | .toneFreq => (atoi v).map fun n s => { s with toneFreq := n }
  | .toneDetune => (atoi v).map fun n s => { s with toneDetune := n }
  | .iface => some fun s => { s with ifaceEgress := some v }
  | .profile => some fun s => { s with profileDante := v = "dante".toList }
  | .aes67Base => some fun s => { s with aes67Base := v }
  | .rtpPort => (atoi v).map fun n s => { s with rtpPort := UInt16.ofInt n }
  | .ptpDomain => (atoi v).map fun n s => { s with ptpDomain := n }
  | .gmid => some fun s => { s with gmid := v }
  | .chPerFlow => (atoi v).map fun n s => { s with chPerFlow := n }
  | .mediaDscp => (atoi v).map fun n s => { s with mediaDscp := n }

def Flag.update : Flag → Settings → Settings
  | .genTone, s => { s with genTone := true }
  | .noSap, s => { s with doSap := false }
  | .sap, s => { s with doSap := true }
  | .bcastOnly, s => { s with bcastOnly := true }
  | .dante, s => { s with profileDante := true }
  | .dumpSamples, s => { s with doDump := true }
  | .countRtp, s => { s with doCount := true }
  | .printSdp, s => { s with doSdp := true }

def valueOptions : List ValueOption :=
  [.pcap, .listen, .udp, .rate, .pt, .ssrc, .ttl, .name, .origin, .plcXfade, .plcFade, .toneFreq, .toneDetune,
    .iface, .profile, .aes67Base, .rtpPort, .ptpDomain, .gmid, .chPerFlow, .mediaDscp]

def flags : List Flag := [.genTone, .noSap, .sap, .bcastOnly, .dante, .dumpSamples, .countRtp, .printSdp]

def readValueOption (arg : List Char) : Option ValueOption := valueOptions.find? fun o => o.text = arg
def readFlag (arg : List Char) : Option Flag := flags.find? fun f => f.text = arg

inductive Parsed where
  | settings (s : Settings)
  | unknown (arg : List Char)
  | undefined

def parseFlag (s : Settings) (arg : List Char) (more : Settings → Parsed) : Parsed :=
  match readFlag arg with
  | some f => more (f.update s)
  | none => .unknown arg

-- An option is one only if an argument follows it.
def parseArgs (long : LongWidth) (s : Settings) : List (List Char) → Parsed
  | [] => .settings s
  | [arg] => parseFlag s arg .settings
  | arg :: v :: rest =>
    match readValueOption arg with
    | some o =>
      match o.update long v with
      | some update => parseArgs long (update s) rest
      | none => .undefined
    | none => parseFlag s arg fun s => parseArgs long s (v :: rest)

/-! ## The argument lists that are understood -/

inductive Arg where
  | value (o : ValueOption) (v : List Char)
  | flag (f : Flag)

def Arg.words : Arg → List (List Char)
  | .value o v => [o.text, v]
  | .flag f => [f.text]

def Arg.update (long : LongWidth) : Arg → Option (Settings → Settings)
  | .value o v => o.update long v
  | .flag f => some f.update

def applyArgs (long : LongWidth) (s : Settings) (args : List Arg) : Option Settings :=
  args.foldlM (fun s arg => (arg.update long).map fun update => update s) s

@[simp] theorem applyArgs_nil (long : LongWidth) (s : Settings) : applyArgs long s [] = some s := rfl

@[simp] theorem applyArgs_cons (long : LongWidth) (s : Settings) (arg : Arg) (args : List Arg) :
    applyArgs long s (arg :: args) =
      (arg.update long).bind fun update => applyArgs long (update s) args := by
  simp only [applyArgs, List.foldlM_cons, Option.bind_eq_bind]
  cases arg.update long <;> rfl

theorem readValueOption_text (o : ValueOption) : readValueOption o.text = some o := by
  cases o <;> decide

theorem readFlag_text (f : Flag) : readFlag f.text = some f := by
  cases f <;> decide

theorem readValueOption_flag (f : Flag) : readValueOption f.text = none := by
  cases f <;> decide

theorem readValueOption_some {arg : List Char} {o : ValueOption} (read : readValueOption arg = some o) :
    o.text = arg := by
  simpa using List.find?_some read

theorem readFlag_some {arg : List Char} {f : Flag} (read : readFlag arg = some f) : f.text = arg := by
  simpa using List.find?_some read

section Words

variable {long : LongWidth}

theorem parseArgs_value (s : Settings) (o : ValueOption) (v : List Char) (rest : List (List Char)) :
    parseArgs long s (o.text :: v :: rest) =
      match o.update long v with
      | some update => parseArgs long (update s) rest
      | none => .undefined := by
  rw [parseArgs, readValueOption_text]

theorem parseArgs_flag (s : Settings) (f : Flag) (rest : List (List Char)) :
    parseArgs long s (f.text :: rest) = parseArgs long (f.update s) rest := by
  cases rest with
  | nil => simp only [parseArgs, parseFlag, readFlag_text]
  | cons v rest => simp only [parseArgs, readValueOption_flag, parseFlag, readFlag_text]

theorem parseArgs_words (s : Settings) (args : List Arg) (rest : List (List Char)) :
    parseArgs long s (args.flatMap Arg.words ++ rest) =
      match applyArgs long s args with
      | some s => parseArgs long s rest
      | none => .undefined := by
  induction args generalizing s with
  | nil => rfl
  | cons arg args ih =>
    cases arg with
    | value o v =>
      have here : (Arg.value o v :: args).flatMap Arg.words ++ rest =
          o.text :: v :: (args.flatMap Arg.words ++ rest) := rfl
      rw [here, parseArgs_value, applyArgs_cons, Arg.update]
      cases o.update long v with
      | none => rfl
      | some update => exact ih (update s)
    | flag f =>
      have here : (Arg.flag f :: args).flatMap Arg.words ++ rest =
          f.text :: (args.flatMap Arg.words ++ rest) := rfl
      rw [here, parseArgs_flag, applyArgs_cons, Arg.update, ih]
      rfl

/-- What is left when `main` stops: nothing, or an argument that is unknown or lacks its value. -/
def Stops : List (List Char) → Prop
  | [] => True
  | arg :: rest => readFlag arg = none ∧ (readValueOption arg = none ∨ rest = [])

theorem parseArgs_stray (s : Settings) {arg : List Char} {rest : List (List Char)}
    (stops : Stops (arg :: rest)) : parseArgs long s (arg :: rest) = .unknown arg := by
  obtain ⟨noFlag, noOption | rfl⟩ := stops
  next =>
    cases rest with
    | nil => simp only [parseArgs, parseFlag, noFlag]
    | cons v rest => simp only [parseArgs, noOption, parseFlag, noFlag]
  next => simp only [parseArgs, parseFlag, noFlag]

-- Every list of arguments is a run of options up to where `main` stops.
theorem exists_words (argv : List (List Char)) :
    ∃ args rest, argv = List.flatMap Arg.words args ++ rest ∧ Stops rest := by
  induction argv using List.twoStepInduction with
  | nil => exact ⟨[], [], rfl, trivial⟩
  | singleton arg =>
    cases flag : readFlag arg with
    | none => exact ⟨[], [arg], rfl, flag, .inr rfl⟩
    | some f => exact ⟨[.flag f], [], by simp [Arg.words, readFlag_some flag], trivial⟩
  | cons_cons arg v rest ihRest ihTail =>
    cases option : readValueOption arg with
    | some o =>
      obtain ⟨args, left, split, stops⟩ := ihRest
      refine ⟨.value o v :: args, left, ?_, stops⟩
      rw [List.flatMap_cons, Arg.words, readValueOption_some option, List.append_assoc, ← split]
      rfl
    | none =>
      cases flag : readFlag arg with
      | some f =>
        obtain ⟨args, left, split, stops⟩ := ihTail v
        refine ⟨.flag f :: args, left, ?_, stops⟩
        rw [List.flatMap_cons, Arg.words, readFlag_some flag, List.append_assoc, ← split]
        rfl
      | none => exact ⟨[], arg :: v :: rest, rfl, flag, .inl option⟩

/-- The options before the stop take effect from left to right, and the stop decides the result. -/
theorem parseArgs_grammar (long : LongWidth) (s : Settings) (argv : List (List Char)) :
    (∃ args rest, argv = List.flatMap Arg.words args ++ rest ∧ Stops rest) ∧
      ∀ args rest, argv = List.flatMap Arg.words args ++ rest → Stops rest →
        parseArgs long s argv =
          match applyArgs long s args, rest with
          | none, _ => .undefined
          | some s, [] => .settings s
          | some _, arg :: _ => .unknown arg := by
  refine ⟨exists_words argv, ?_⟩
  rintro args rest rfl stops
  rw [parseArgs_words]
  cases applyArgs long s args with
  | none => rfl
  | some s =>
    cases rest with
    | nil => exact parseArgs.eq_1 long s
    | cons arg rest => exact parseArgs_stray s stops

-- A value that reads like an option, and an option that lacks its value.
theorem parseArgs_grammar_stray :
    parseArgs .long64 {} ["--ttl".toList, "4".toList, "--gmid".toList, "--no-sap".toList, "--no-sap".toList,
      "--pt".toList] = .unknown "--pt".toList :=
  ((parseArgs_grammar .long64 {} _).2 [.value .ttl "4".toList, .value .gmid "--no-sap".toList, .flag .noSap]
    ["--pt".toList] rfl ⟨by decide, .inr rfl⟩).trans rfl

-- A flag at the end takes effect after everything else.
theorem parseArgs_append_flag {s s' : Settings} {argv : List (List Char)}
    (parsed : parseArgs long s argv = .settings s') (f : Flag) :
    parseArgs long s (argv ++ [f.text]) = .settings (f.update s') := by
  obtain ⟨args, rest, rfl, stops⟩ := exists_words argv
  rw [parseArgs_words] at parsed
  rw [List.append_assoc, parseArgs_words]
  cases applied : applyArgs long s args with
  | none =>
    rw [applied] at parsed
    cases parsed
  | some t =>
    simp only [applied] at parsed ⊢
    cases rest with
    | nil =>
      rw [parseArgs.eq_1, Parsed.settings.injEq] at parsed
      rw [List.nil_append, parseArgs_flag, parseArgs.eq_1, parsed]
    | cons arg rest =>
      rw [parseArgs_stray t stops] at parsed
      cases parsed

end Words

end ReacAes67
