import ReacAes67.CommandLine
import ReacAes67.PwProgress

set_option autoImplicit false

/-!
# The process of the capture node

`main` reads its arguments, recovers the rate, and runs or exits. While it runs
the two threads play what the wire brings.
-/

namespace ReacAes67

open OwnSteps SampleBlock

variable {α : Type}

inductive RxKind where
  | pcap
  | live
deriving DecidableEq, Repr

structure RxCfg where
  kind : RxKind
  source : Option (List Char)
  forcedRate : Int
  txIf : Option (List Char)

-- What the process finds: `reac_detect_rate_fd` on an interface, `none` without a capture socket.
structure PwEnv where
  detectRate : List Char → Option Int
  newSourceNode : Bool
  rxStart : Bool

inductive PwOutcome where
  | exit (code : Nat)
  | running (cfg : RxCfg) (sampleRate : Int)

-- Every option has a value. `some none` asks for the usage text, `none` is an `atoi` out of range.
def pwArgs : RxCfg → List (List Char) → Option (Option RxCfg)
  | cfg, [] => some (some cfg)
  | _, [_] => some none
  | cfg, arg :: v :: rest =>
    if arg = "--pcap".toList then pwArgs { cfg with kind := .pcap, source := some v } rest
    else if arg = "--live".toList then pwArgs { cfg with kind := .live, source := some v } rest
    else if arg = "--rate".toList then (atoi v).bind fun n => pwArgs { cfg with forcedRate := n } rest
    else if arg = "--tx".toList then pwArgs { cfg with txIf := some v } rest
    else some none

/-- The rate that `reac_rx_open` recovers. -/
def reacRxOpen (env : PwEnv) (cfg : RxCfg) (source : List Char) : Option Int :=
  if cfg.forcedRate ≠ 0 then some cfg.forcedRate
  else
    match cfg.kind with
    | .live => (env.detectRate source).map fun r => if r > 0 then r else 48000
    | .pcap => some 48000

def reacPwMain (env : PwEnv) (argv : List (List Char)) : Option PwOutcome :=
  (pwArgs ⟨.pcap, none, 0, none⟩ argv).map fun parsed =>
    match parsed with
    | none => .exit 2
    | some cfg =>
      match cfg.source with
      | none => .exit 2
      | some source =>
        match reacRxOpen env cfg source with
        | none => .exit 1
        | some sampleRate =>
          if !env.newSourceNode then .exit 1
          else if !env.rxStart then .exit 1
          else .running cfg sampleRate

-- A rate is forced only to one that the desks have.
theorem reacRxOpen_standard {env : PwEnv} {cfg : RxCfg} {source : List Char} {rate : Int}
    (detects : ∀ ifname r, env.detectRate ifname = some r → 0 < r → ∃ s ∈ standardRates, r = (s : Nat))
    (forced : cfg.forcedRate = 0 ∨ ∃ s ∈ standardRates, cfg.forcedRate = (s : Nat))
    (opened : reacRxOpen env cfg source = some rate) : ∃ s ∈ standardRates, rate = (s : Nat) := by
  have usual : ∃ s ∈ standardRates, (48000 : Int) = (s : Nat) := ⟨48000, by decide, rfl⟩
  unfold reacRxOpen at opened
  split at opened
  next set =>
    obtain rfl := Option.some.inj opened
    exact forced.resolve_left set
  next =>
    cases kind : cfg.kind with
    | pcap =>
      simp only [kind, Option.some.injEq] at opened
      exact opened ▸ usual
    | live =>
      simp only [kind, Option.map_eq_some_iff] at opened
      obtain ⟨r, found, rfl⟩ := opened
      split
      next positive => exact detects source r found positive
      next => exact usual

/-- What `main` comes to, and what the graph can hear of it under every interleaving. -/
def PwOutcome.Served [Zero α] (toFloat : Sample → α) : PwOutcome → Prop
  | .exit code => code = 1 ∨ code = 2
  | .running cfg rate => (cfg.forcedRate = 0 ∨ ∃ s ∈ standardRates, cfg.forcedRate = (s : Nat)) →
    ∃ s ∈ standardRates, rate = (s : Nat) ∧ ∀ events : List (PwEvent α),
      (pwRun toFloat (broadcastMode s) (pwStart s) events).Plays toFloat (broadcastMode s) ∧
        (pwRun toFloat (broadcastMode s) (pwStart s) events).Progresses toFloat (broadcastMode s)

/-- Whatever the arguments are, a process that runs plays what the wire brought. -/
theorem reacPw_plays [Zero α] (toFloat : Sample → α) (env : PwEnv)
    (detects : ∀ ifname r, env.detectRate ifname = some r → 0 < r → ∃ s ∈ standardRates, r = (s : Nat))
    (argv : List (List Char)) (outcome : PwOutcome) (ended : reacPwMain env argv = some outcome) :
    outcome.Served toFloat := by
  obtain ⟨parsed, _, rfl⟩ := Option.map_eq_some_iff.mp ended
  cases parsed with
  | none => exact .inr rfl
  | some cfg =>
    dsimp only
    cases cfg.source with
    | none => exact .inr rfl
    | some source =>
      dsimp only
      cases opened : reacRxOpen env cfg source with
      | none => exact .inl rfl
      | some rate =>
        dsimp only
        split
        next => exact .inl rfl
        next =>
          split
          next => exact .inl rfl
          next =>
            intro forced
            obtain ⟨s, standard, same⟩ := reacRxOpen_standard detects forced opened
            exact ⟨s, standard, same, fun events =>
              ⟨pwRun_plays toFloat standard events, pwRun_progresses toFloat standard events⟩⟩

-- A cycle is heard while the second frame is written.
def overlappedCycle : List (PwEvent Nat) :=
  [.frame (countingFrame 3)] ++ List.replicate 540 .feeder ++
    [.frame (countingFrame 4), .process 8 (fun c => c = 2) fun _ _ => 0] ++
    (List.replicate 700 [PwEvent.feeder, .graph]).flatten

theorem reacPw_plays_live :
    let toFloat (x : Sample) := x.b0.toNat
    let w := pwRun toFloat (broadcastMode 96000) (pwStart 96000) overlappedCycle
    w.Plays toFloat (broadcastMode 96000) ∧ w.Progresses toFloat (broadcastMode 96000) ∧ w.framesOk = 2 ∧
      w.heard.map (fun h => (h.nframes, h.real, h.port 2 0, h.port 2 7)) = [(8, 8, 6, 78)] := by
  intro toFloat w
  obtain ⟨s, _, same, plays⟩ := reacPw_plays toFloat ⟨fun _ => some 96000, true, true⟩
    (fun _ r found _ => ⟨96000, by decide, (Option.some.inj found).symm⟩)
    ["--live".toList, "reac0".toList] _ rfl (.inl rfl)
  obtain rfl : 96000 = s := Int.ofNat.inj same
  have counted : (w.framesOk, w.heard.map fun h => (h.nframes, h.real, h.port 2 0, h.port 2 7)) =
      (2, [(8, 8, 6, 78)]) := by decide +kernel
  obtain ⟨ok, heard⟩ := Prod.mk.inj counted
  exact ⟨(plays overlappedCycle).1, (plays overlappedCycle).2, ok, heard⟩

end ReacAes67
