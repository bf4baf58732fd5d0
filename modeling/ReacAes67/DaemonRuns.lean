import ReacAes67.Daemon

set_option autoImplicit false

/-!
# Runs of the daemon

Whatever the command line says, a run closes what it opens, and sends nothing if
it prints or is refused.
-/

namespace ReacAes67

open BoundedPrint Handles TextLines

variable {host : Host} {env : Surroundings} {s : Settings} {run : ProcessRun} {argv : List (List Char)}

/-- Descriptors are opened and closed in turns and used in between. A refused run sends nothing, a failed one
no media, and one that prints nothing. -/
structure ProcessRun.Safe (run : ProcessRun) : Prop where
  balanced : Runs ∅ run.trace ∅
  code : run.rc = 0 ∨ run.rc = 1 ∨ run.rc = 2
  refused : run.rc = 2 → ∀ d, datagramsOf d run.trace = []
  failed : run.rc ≠ 0 → ∀ i, datagramsOf (.media i) run.trace = []
  printed : run.printed ≠ [] → ∀ d, datagramsOf d run.trace = []

/-- A run that sends nothing at all. -/
structure ProcessRun.Quiet (run : ProcessRun) : Prop where
  balanced : Runs ∅ run.trace ∅
  code : run.rc = 0 ∨ run.rc = 1 ∨ run.rc = 2
  silent : ∀ d, datagramsOf d run.trace = []

theorem ProcessRun.Quiet.safe (quiet : run.Quiet) : run.Safe where
  balanced := quiet.balanced
  code := quiet.code
  refused _ := quiet.silent
  failed _ i := quiet.silent (.media i)
  printed _ := quiet.silent

theorem ProcessRun.Quiet.refuse (printed : List Char) : (⟨2, [], printed⟩ : ProcessRun).Quiet :=
  ⟨.nil, .inr (.inr rfl), fun _ => rfl⟩

/-! ## Printing and counting -/

theorem printFlows_code (host : Host) (o : Options) (flows : List (ReacFlow × Nat)) :
    (printFlows host o flows).1 = 0 ∨ (printFlows host o flows).1 = 1 ∨ (printFlows host o flows).1 = 2 := by
  induction flows with
  | nil => exact .inl rfl
  | cons fl flows ih =>
    obtain ⟨fl, i⟩ := fl
    cases printed : printFlow host o i fl with
    | error rc =>
      have known : rc = 1 ∨ rc = 2 := by
        unfold printFlow at printed
        split at printed
        next => exact .inr (Except.error.inj printed).symm
        next =>
          split at printed
          next => exact .inl (Except.error.inj printed).symm
          next => cases printed
      simpa only [printFlows, printed] using Or.inr known
    | ok text => simpa only [printFlows, printed] using ih

theorem printDante_quiet {o : Options} (done : printDante host o = some run) : run.Quiet := by
  simp only [printDante, Option.bind_eq_bind, Option.bind_eq_some_iff] at done
  obtain ⟨⟨n, flows⟩, _, done⟩ := done
  simp only at done
  split at done
  next =>
    cases done
    exact .refuse []
  next =>
    cases done
    exact ⟨.nil, printFlows_code host o _, fun _ => rfl⟩

theorem printPlain_quiet (done : printPlain host s = some run) : run.Quiet := by
  unfold printPlain at done
  split at done
  next =>
    cases done
    exact .refuse []
  next =>
    simp only [Option.bind_eq_bind, Option.bind_eq_some_iff] at done
    obtain ⟨place, _, done⟩ := done
    split at done
    next =>
      cases done
      exact .refuse []
    next =>
      split at done
      next =>
        cases done
        exact ⟨.nil, .inr (.inl rfl), fun _ => rfl⟩
      next =>
        cases done
        exact ⟨.nil, .inl rfl, fun _ => rfl⟩

theorem dumpSamples_quiet {mode : ReacMode} {path : List Char}
    (done : dumpSamples env mode path = some run) : run.Quiet := by
  have closed : Descriptor.replay ∉ (∅ : Set Descriptor) := Set.notMem_empty _
  have isOpen : Descriptor.replay ∈ insert Descriptor.replay (∅ : Set Descriptor) := Set.mem_insert _ _
  unfold dumpSamples at done
  split at done
  next =>
    cases done
    exact ⟨.nil, .inr (.inl rfl), fun _ => rfl⟩
  next path' _ =>
    split at done
    next =>
      cases done
      refine ⟨replayTrace_runs closed path fun _ member => absurd member List.not_mem_nil, .inr (.inl rfl),
        fun d => datagramsOf_eq_nil.mpr fun bytes => ?_⟩
      simp [replayTrace, sendPacket]
    next =>
      simp only [Option.bind_eq_bind, Option.bind_eq_some_iff] at done
      obtain ⟨⟨frames, _⟩, _, _, _, done⟩ := done
      cases done
      refine ⟨replayTrace_runs closed path ?_, .inl rfl, fun d => datagramsOf_eq_nil.mpr fun bytes => ?_⟩
      next =>
        rintro event member
        obtain ⟨buf, rfl⟩ : ∃ buf, event = takeRecord buf := by
          rcases List.mem_append.mp member with read | last
          next =>
            obtain ⟨buf, _, rfl⟩ := List.mem_map.mp read
            exact ⟨_, rfl⟩
          next => exact ⟨none, List.mem_singleton.mp last⟩
        exact ⟨.replay, isOpen, _, rfl⟩
      next => simp [replayTrace, takeRecord, sendPacket]

theorem countPlain_quiet {mode : ReacMode} {pt : UInt8} {ssrc : UInt32} {path : List Char}
    (done : countPlain env mode pt ssrc path = some run) : run.Quiet := by
  simp only [countPlain, Option.bind_eq_bind, Option.bind_eq_some_iff] at done
  obtain ⟨source, replayed, _, _, _, _, done⟩ := done
  cases done
  have silent : Emits (σ := Unit) ∅ (fun _ _ => []) [] :=
    ⟨fun _ _ _ member => absurd member List.not_mem_nil, fun _ member => absurd member List.not_mem_nil⟩
  have sends := (replayRun_sends silent (Set.notMem_empty _) replayed).1
  exact ⟨sends.runs, sends.code.imp_right fun failed => .inl failed.1,
    replayRun_silent (fun _ _ => rfl) replayed⟩

/-! ## Sending -/

theorem runDante_safe {o : Options} {cfg : DanteLaunch} {run : DanteRun}
    (sends : cfg.countOnly = false) (done : runDante host o cfg env = some run) :
    (⟨run.rc, run.trace, []⟩ : ProcessRun).Safe := by
  have balanced := runDante_balanced done
  have delivery := runDante_delivers sends done
  split at delivery
  next =>
    obtain ⟨code, _, silent⟩ := delivery
    exact {
      balanced := balanced
      code := .inr code
      refused := fun _ d => datagramsOf_eq_nil.mpr (silent d)
      failed := fun _ i => datagramsOf_eq_nil.mpr (silent (.media i))
      printed := fun printed => absurd rfl printed }
  next flows opened =>
    have code : run.rc = 0 ∨ run.rc = 1 := delivery.code.imp_right And.left
    refine ⟨balanced, code.imp_right .inl, fun refused => ?_, fun failed i => ?_,
      fun printed => absurd rfl printed⟩
    next => rcases code with ok | failed <;> simp_all
    next =>
      have nothing : run.fed = [] := (delivery.code.resolve_left failed).2
      by_cases inside : i < flows.length
      next =>
        rw [delivery.datagrams inside, nothing, ← dantePipelineOf_sent env opened]
        rfl
      next =>
        have closed := delivery.sockets i
        rw [if_neg inside] at closed
        exact datagramsOf_silent (balanced.unused (Set.notMem_empty _) closed)

theorem runDante_counting_quiet {o : Options} {cfg : DanteLaunch} {run : DanteRun} (printed : List Char)
    (counts : cfg.countOnly = true) {path : List Char} (pcap : cfg.pcap = some path)
    (done : runDante host o cfg env = some run) :
    (⟨run.rc, run.trace, printed⟩ : ProcessRun).Quiet := by
  have balanced := runDante_balanced done
  obtain ⟨n, flows, _, ⟨_, rfl⟩ | ⟨_, opened, _, short, _⟩ | ⟨_, source, fed⟩⟩ := runDante_cases done
  next => exact .refuse printed
  next => simp [danteWanted, counts] at short
  next =>
    have code := (danteFeed_sends (danteRound_emits host o cfg flows _) fed.fed).code
    refine ⟨balanced, ?_, (fed.counts counts pcap).2⟩
    rw [fed.outcome]
    exact code.imp_right fun failed => .inl failed.1

theorem runPlain_safe {o : Options} {cfg : PlainLaunch} {run : PlainRun}
    (done : runPlain host o cfg env = some run) : (⟨run.rc, run.trace, []⟩ : ProcessRun).Safe := by
  obtain ⟨balanced, delivery⟩ := runPlain_delivers done
  split at delivery
  next =>
    refine ⟨balanced, ?_, fun refused => ?_, fun failed i => ?_, fun printed => absurd rfl printed⟩
    next => exact delivery.code.imp_right (Or.imp And.left And.left)
    next =>
      obtain ok | failed | quiet := delivery.code
      next => exact absurd (ok.symm.trans refused) (by decide)
      next => exact absurd (failed.1.symm.trans refused) (by decide)
      next => exact fun d => datagramsOf_eq_nil.mpr (quiet.2.2.2 d)
    next =>
      have nothing : run.source = .captured [] := by
        obtain ok | failed | quiet := delivery.code
        next => exact absurd ok failed
        next => exact failed.2
        next => exact quiet.2.2.1
      by_cases own : i = 0
      next =>
        rw [own, datagramsOf, delivery.media, nothing]
        rfl
      next =>
        have closed := delivery.sockets i
        rw [if_neg own] at closed
        exact datagramsOf_silent (balanced.unused (Set.notMem_empty _) closed)
  next =>
    obtain ⟨code, silent⟩ := delivery
    exact ProcessRun.Quiet.safe ⟨balanced, .inr (.inl code), fun _ => by rw [silent]; rfl⟩

theorem sendDante_safe (done : sendDante host s env = some run) : run.Safe := by
  unfold sendDante at done
  split at done
  next =>
    cases done
    exact (ProcessRun.Quiet.refuse []).safe
  next =>
    obtain ⟨sent, runs, rfl⟩ := Option.map_eq_some_iff.mp done
    exact runDante_safe rfl runs

theorem sendPlain_safe (done : sendPlain host s env = some run) : run.Safe := by
  unfold sendPlain at done
  split at done
  next =>
    cases done
    exact (ProcessRun.Quiet.refuse []).safe
  next =>
    simp only [Option.bind_eq_bind, Option.bind_eq_some_iff] at done
    obtain ⟨place, _, done⟩ := done
    split at done
    next =>
      cases done
      exact (ProcessRun.Quiet.refuse []).safe
    next =>
      simp only [Option.bind_eq_some_iff] at done
      obtain ⟨sent, runs, done⟩ := done
      cases done
      exact runPlain_safe runs

theorem countDante_quiet {path : List Char} (pcap : s.pcap = some path)
    (done : countDante host s env = some run) :
    run.Quiet := by
  simp only [countDante, Option.bind_eq_bind, Option.bind_eq_some_iff] at done
  obtain ⟨_, _, counted, runs, done⟩ := done
  cases done
  exact runDante_counting_quiet _ rfl pcap runs

/-- A command line that asks for a stream. -/
structure Settings.Sends (s : Settings) : Prop where
  printSdp : s.doSdp = false
  dumpSamples : s.doDump = false
  countRtp : s.doCount = false

theorem dispatch_sends (sends : s.Sends) : dispatch host env s =
    if s.profileDante then sendDante host s env else sendPlain host s env := by
  simp [dispatch, sends.printSdp, sends.dumpSamples, sends.countRtp]

theorem dispatch_quiet (other : ¬ s.Sends) (done : dispatch host env s = some run) : run.Quiet := by
  unfold dispatch at done
  split at done
  next =>
    split at done
    next => exact printDante_quiet done
    next => exact printPlain_quiet done
  next noSdp =>
    split at done
    next =>
      split at done
      next =>
        cases done
        exact .refuse []
      next => exact dumpSamples_quiet done
    next noDump =>
      split at done
      next =>
        split at done
        next =>
          cases done
          exact .refuse []
        next pcap =>
          split at done
          next => exact countDante_quiet pcap done
          next => exact countPlain_quiet done
      next noCount =>
        exact absurd ⟨Bool.eq_false_of_not_eq_true noSdp, Bool.eq_false_of_not_eq_true noDump,
          Bool.eq_false_of_not_eq_true noCount⟩ other

theorem dispatch_safe (done : dispatch host env s = some run) : run.Safe := by
  by_cases sends : s.Sends
  next =>
    rw [dispatch_sends sends] at done
    split at done
    next => exact sendDante_safe done
    next => exact sendPlain_safe done
  next => exact (dispatch_quiet sends done).safe

/-! ## The whole process -/

theorem mainProcess_settings (parsed : parseArgs env.long {} argv = .settings s) :
    mainProcess host env argv = (dispatch host env (resolveRate env s).1).map fun run =>
      { run with trace := (resolveRate env s).2 ++ run.trace } := by
  simp only [mainProcess, parsed]

-- Only the rate is settled by listening, and the capture is closed again.
theorem resolveRate_eq (env : Surroundings) (s : Settings) :
    (∃ rate, (resolveRate env s).1 = { s with rate := rate }) ∧
      ((resolveRate env s).2 = [] ∨
        ∃ ifname rate, (resolveRate env s).2 =
          [.opened .capture (.packetSocket ifname), .used .capture (.detected rate), .closed .capture]) := by
  unfold resolveRate
  split
  next ifname _ =>
    split
    next =>
      refine ⟨?_, .inr ⟨ifname, _, rfl⟩⟩
      dsimp only
      split
      next => exact ⟨_, rfl⟩
      next => exact ⟨s.rate, rfl⟩
    next => exact ⟨⟨s.rate, rfl⟩, .inl rfl⟩
  next => exact ⟨⟨s.rate, rfl⟩, .inl rfl⟩

@[simp] theorem datagramsOf_resolveRate (d : Descriptor) : datagramsOf d (resolveRate env s).2 = [] := by
  rw [datagramsOf_eq_nil]
  obtain ⟨_, listened | ⟨_, _, listened⟩⟩ := resolveRate_eq env s <;> simp [listened, sendPacket]

theorem resolveRate_runs (env : Surroundings) (s : Settings) : Runs ∅ (resolveRate env s).2 ∅ := by
  obtain ⟨_, listened | ⟨ifname, rate, listened⟩⟩ := resolveRate_eq env s
  next =>
    rw [listened]
    exact .nil
  next =>
    have detecting : UsesOnly {Descriptor.capture} ([.used .capture (.detected rate)] : Trace) :=
      fun event member =>
      ⟨.capture, rfl, _, List.mem_singleton.mp member⟩
    rw [listened]
    exact Runs.bracket (Set.notMem_empty _) (detecting.mono (by simp)).runs

theorem datagramsOf_listened (d : Descriptor) (trace : Trace) :
    datagramsOf d ((resolveRate env s).2 ++ trace) = datagramsOf d trace := by
  rw [datagramsOf, usesOf_append, List.filterMap_append]
  exact congrArg (· ++ _) (datagramsOf_resolveRate d)

theorem ProcessRun.Safe.listened (safe : run.Safe) :
    ({ run with trace := (resolveRate env s).2 ++ run.trace } : ProcessRun).Safe where
  balanced := (resolveRate_runs env s).append safe.balanced
  code := safe.code
  refused code d := (datagramsOf_listened d _).trans (safe.refused code d)
  failed code i := (datagramsOf_listened _ _).trans (safe.failed code i)
  printed printed d := (datagramsOf_listened d _).trans (safe.printed printed d)

/-- Every descriptor is closed as often as it is opened and is open whenever it is used. A run that is refused
sends nothing, one that fails no media, and one that prints nothing. -/
theorem mainProcess_safe (done : mainProcess host env argv = some run) :
    (∀ d, opens d run.trace = closes d run.trace ∧
        ∀ before what after, run.trace = before ++ .used d what :: after →
          opens d before = closes d before + 1) ∧
      (run.rc = 0 ∨ run.rc = 1 ∨ run.rc = 2) ∧
      (run.rc = 2 ∨ run.printed ≠ [] → ∀ d, datagramsOf d run.trace = []) ∧
      (run.rc ≠ 0 → ∀ i, datagramsOf (.media i) run.trace = []) := by
  have safe : run.Safe := by
    cases parsed : parseArgs env.long {} argv with
    | undefined =>
      rw [mainProcess, parsed] at done
      cases done
    | unknown arg =>
      simp only [mainProcess, parsed, Option.some.injEq] at done
      rw [← done]
      exact (ProcessRun.Quiet.refuse []).safe
    | settings s =>
      rw [mainProcess_settings parsed] at done
      obtain ⟨inner, dispatched, rfl⟩ := Option.map_eq_some_iff.mp done
      exact (dispatch_safe dispatched).listened
  exact ⟨safe.balanced.accounts, safe.code, fun quiet => quiet.elim safe.refused safe.printed, safe.failed⟩

/-- The media datagrams of a process, on whatever sockets. -/
def mediaDatagrams (trace : Trace) : Nat :=
  trace.countP fun
    | .used (.media _) (.datagram _) => true
    | _ => false

def masterFrames : List (List UInt8) :=
  (List.range 5).map fun k => wireFrame (fun _ => 0xff) (UInt16.ofNat k) fun i => UInt8.ofNat i

-- Five frames arrive on the interface before the process is stopped, and the capture file holds them too.
def busySurroundings : Surroundings where
  now := some 1700000000000000000
  memory := SampleBlock.Block.blank
  file _ := some ([0xd4, 0xc3, 0xb2, 0xa1, 2, 0, 4, 0, 0, 0, 0, 0, 0, 0, 0, 0, 0xff, 0xff, 0, 0, 1, 0, 0, 0] ++
    masterFrames.flatMap fun frame => [1, 0, 0, 0, 0, 0, 0, 0, 0xd4, 5, 0, 0, 0xd4, 5, 0, 0] ++ frame)
  capture _ := some (masterFrames.map .received)
  detectRate _ := 0
  eventLoop := none
  tone _ _ _ := SampleBlock.Block.blank
  gStop k := 5 ≤ k
  long := .long64
  fuel := 7

def danteArguments : List (List Char) := ["--dante".toList, "--listen".toList, "eth0".toList]

def plainArguments : List (List Char) := ["--pcap".toList, "f".toList, "--udp".toList, "239.69.0.1:5004".toList]

-- Four frames fill a packet of each of five flows.
theorem danteArguments_runs : ∃ run, mainProcess libreacHost busySurroundings danteArguments = some run ∧
    mediaDatagrams run.trace = 5 := by
  have sent :
      (mainProcess libreacHost busySurroundings danteArguments).map (fun run => mediaDatagrams run.trace) =
      some 5 := by decide +kernel
  exact Option.map_eq_some_iff.mp sent

theorem plainArguments_runs : ∃ run, mainProcess libreacHost busySurroundings plainArguments = some run ∧
    run.rc = 0 ∧ mediaDatagrams run.trace = 5 := by
  have sent : (mainProcess libreacHost busySurroundings plainArguments).map
      (fun run => (run.rc, mediaDatagrams run.trace)) = some (0, 5) := by decide +kernel
  obtain ⟨run, done, results⟩ := Option.map_eq_some_iff.mp sent
  exact ⟨run, done, Prod.mk.inj results⟩

theorem mainProcess_safe_busy : ∃ run, mainProcess libreacHost busySurroundings danteArguments = some run ∧
    mediaDatagrams run.trace = 5 ∧ ∀ d, opens d run.trace = closes d run.trace ∧
      ∀ before what after, run.trace = before ++ .used d what :: after →
        opens d before = closes d before + 1 := by
  obtain ⟨run, done, sent⟩ := danteArguments_runs
  exact ⟨run, done, sent, (mainProcess_safe done).1⟩

theorem Settings.Sends.resolved (sends : s.Sends) : (resolveRate env s).1.Sends := by
  obtain ⟨⟨rate, same⟩, -⟩ := resolveRate_eq env s
  rw [same]
  exact ⟨sends.printSdp, sends.dumpSamples, sends.countRtp⟩

theorem resolveRate_dante (dante : s.profileDante = true) : resolveRate env s = (s, []) := by
  unfold resolveRate
  split
  next => simp [dante]
  next => rfl

theorem mainProcess_dante (parsed : parseArgs env.long {} argv = .settings s) (sends : s.Sends)
    (dante : s.profileDante = true) (done : mainProcess host env argv = some run) :
    if s.pcap = none ∧ s.iface = none then run = ⟨2, [], []⟩
    else
      ∃ sent : DanteRun, runDante host s.danteOptions (s.danteLaunch false) env = some sent ∧
        run = ⟨sent.rc, sent.trace, []⟩ := by
  rw [mainProcess_settings parsed, resolveRate_dante dante, dispatch_sends sends, if_pos dante] at done
  obtain ⟨inner, sent, rfl⟩ := Option.map_eq_some_iff.mp done
  unfold sendDante at sent
  by_cases nothing : s.pcap = none ∧ s.iface = none
  next =>
    rw [if_pos (by simp [nothing])] at sent
    cases sent
    rw [if_pos nothing]
    rfl
  next =>
    have sourced : ¬ (s.pcap.isNone && s.iface.isNone) = true := by simpa using nothing
    rw [if_neg sourced] at sent
    obtain ⟨danteRun, runs, rfl⟩ := Option.map_eq_some_iff.mp sent
    rw [if_neg nothing]
    exact ⟨danteRun, runs, rfl⟩

theorem mainProcess_plain (parsed : parseArgs env.long {} argv = .settings s) (sends : s.Sends)
    (plain : s.profileDante = false) (done : mainProcess host env argv = some run) :
    (∃ udp ip port sent, s.udp = some udp ∧ parseIpport 64 udp = some (some (ip, port)) ∧
        runPlain host ((resolveRate env s).1.options ip port) (s.plainLaunch udp) env = some sent ∧
        run = ⟨sent.rc, (resolveRate env s).2 ++ sent.trace, []⟩) ∨
      run = ⟨2, (resolveRate env s).2, []⟩ := by
  obtain ⟨⟨rate, same⟩, -⟩ := resolveRate_eq env s
  rw [mainProcess_settings parsed, dispatch_sends sends.resolved, if_neg (by simp [same, plain])] at done
  obtain ⟨inner, sent, rfl⟩ := Option.map_eq_some_iff.mp done
  have launch (udp : List Char) : (resolveRate env s).1.plainLaunch udp = s.plainLaunch udp := by rw [same]; rfl
  have udp : (resolveRate env s).1.udp = s.udp := by rw [same]
  unfold sendPlain at sent
  rw [udp] at sent
  split at sent
  next =>
    cases sent
    exact .inr (by rw [List.append_nil])
  next udp given =>
    simp only [Option.bind_eq_bind, Option.bind_eq_some_iff] at sent
    obtain ⟨place, read, sent⟩ := sent
    split at sent
    next =>
      cases sent
      exact .inr (by rw [List.append_nil])
    next ip port =>
      simp only [Option.bind_eq_some_iff] at sent
      obtain ⟨plainRun, runs, sent⟩ := sent
      cases sent
      rw [launch] at runs
      exact .inl ⟨udp, ip, port, plainRun, given, read, runs, rfl⟩

def danteSettings : Settings := { profileDante := true, iface := some "eth0".toList }

def plainSettings : Settings := { pcap := some "f".toList, udp := some "239.69.0.1:5004".toList }

theorem danteArguments_parsed (long : LongWidth) :
    parseArgs long {} danteArguments = .settings danteSettings := rfl

theorem plainArguments_parsed (long : LongWidth) :
    parseArgs long {} plainArguments = .settings plainSettings := rfl

/-- With the Dante profile the process delivers every flow of its table, or fails before it sends anything. -/
theorem mainProcess_delivers_dante (parsed : parseArgs env.long {} argv = .settings s) (sends : s.Sends)
    (dante : s.profileDante = true) (done : mainProcess host env argv = some run) :
    if s.pcap = none ∧ s.iface = none then run = ⟨2, [], []⟩
    else
      ∃ sent : DanteRun, run = ⟨sent.rc, sent.trace, []⟩ ∧
        match danteFlows host s.danteOptions with
        | none => (run.rc = 1 ∨ run.rc = 2) ∧ ∀ d, datagramsOf d run.trace = []
        | some flows => DanteDelivery host s.danteOptions (s.danteLaunch false) env flows sent := by
  have started := mainProcess_dante parsed sends dante done
  split at started
  next nothing => rwa [if_pos nothing]
  next sourced =>
    rw [if_neg sourced]
    obtain ⟨sent, runs, rfl⟩ := started
    refine ⟨sent, rfl, ?_⟩
    have delivery := runDante_delivers rfl runs
    cases opened : danteFlows host s.danteOptions with
    | none =>
      rw [opened] at delivery
      exact ⟨delivery.1, fun d => datagramsOf_eq_nil.mpr (delivery.2.2 d)⟩
    | some flows =>
      rw [opened] at delivery
      exact delivery

theorem mainProcess_delivers_dante_busy : ∃ run sent flows,
    mainProcess libreacHost busySurroundings danteArguments = some run ∧ mediaDatagrams run.trace = 5 ∧
      run = ⟨sent.rc, sent.trace, []⟩ ∧ danteFlows libreacHost danteSettings.danteOptions = some flows ∧
      DanteDelivery libreacHost danteSettings.danteOptions (danteSettings.danteLaunch false) busySurroundings
        flows sent := by
  obtain ⟨run, done, five⟩ := danteArguments_runs
  obtain ⟨flows, opened⟩ := Option.isSome_iff_exists.mp
    (show (danteFlows libreacHost danteSettings.danteOptions).isSome = true by decide +kernel)
  have delivery := mainProcess_delivers_dante (danteArguments_parsed _) ⟨rfl, rfl, rfl⟩ rfl done
  rw [if_neg (by simp [danteSettings]), opened] at delivery
  obtain ⟨sent, same, delivery⟩ := delivery
  exact ⟨run, sent, flows, done, five, same, opened, delivery⟩

/-- Without it the process delivers one stream to the destination of `--udp`, or fails before it sends
anything. -/
theorem mainProcess_delivers_plain (parsed : parseArgs env.long {} argv = .settings s) (sends : s.Sends)
    (plain : s.profileDante = false) (done : mainProcess host env argv = some run) :
    (∃ udp ip port sent, s.udp = some udp ∧ parseIpport 64 udp = some (some (ip, port)) ∧
        host.sendOpen ip port = true ∧ run = ⟨sent.rc, (resolveRate env s).2 ++ sent.trace, []⟩ ∧
        PlainDelivery host ((resolveRate env s).1.options ip port) (s.plainLaunch udp) env sent) ∨
      (run.rc = 1 ∨ run.rc = 2) ∧ ∀ d, datagramsOf d run.trace = [] := by
  obtain ⟨udp, ip, port, sent, given, read, runs, rfl⟩ | rfl := mainProcess_plain parsed sends plain done
  next =>
    obtain ⟨-, delivery⟩ := runPlain_delivers runs
    split at delivery
    next isOpen => exact .inl ⟨udp, ip, port, sent, given, read, isOpen, rfl, delivery⟩
    next =>
      obtain ⟨code, silent⟩ := delivery
      refine .inr ⟨.inl code, fun d => (datagramsOf_listened d _).trans ?_⟩
      rw [silent]
      rfl
  next => exact .inr ⟨.inr rfl, fun d => datagramsOf_resolveRate d⟩

theorem mainProcess_delivers_plain_busy : ∃ run sent,
    mainProcess libreacHost busySurroundings plainArguments = some run ∧ mediaDatagrams run.trace = 5 ∧
      run = ⟨sent.rc, sent.trace, []⟩ ∧
      PlainDelivery libreacHost (plainSettings.options "239.69.0.1".toList 5004)
        (plainSettings.plainLaunch "239.69.0.1:5004".toList) busySurroundings sent := by
  obtain ⟨run, done, complete, five⟩ := plainArguments_runs
  obtain ⟨_, _, _, sent, ⟨rfl⟩, ⟨rfl⟩, _, same, delivery⟩ | ⟨failed, _⟩ :=
    mainProcess_delivers_plain (plainArguments_parsed _) ⟨rfl, rfl, rfl⟩ rfl done
  next => exact ⟨run, sent, done, five, same, delivery⟩
  next =>
    rw [complete] at failed
    exact absurd failed (by decide)

/-! ## Counting what would be sent -/

theorem countPlain_counts {o : Options} {cfg : PlainLaunch} {sent : PlainRun} {path : List Char}
    (replays : cfg.genTone = false ∧ cfg.iface = none) (pcap : cfg.pcap = some path)
    (isOpen : host.sendOpen o.udpIp o.udpPort = true) (done : runPlain host o cfg env = some sent) :
    if CInt.InRange (datagramsOf (.media 0) sent.trace).length then
      ∃ counted concealed, countPlain env (o.mode host) o.payloadType o.ssrc path = some counted ∧
        counted.rc = sent.rc ∧ counted.printed = "rtp_packets ".toList ++
          decimal (datagramsOf (.media 0) sent.trace).length ++ " ".toList ++
            ("concealed ".toList ++ decimal (concealed : Nat) ++ "\n".toList)
    else countPlain env (o.mode host) o.payloadType o.ssrc path = none := by
  have delivery := (runPlain_delivers done).2
  rw [if_pos isOpen] at delivery
  simp only [runPlain, isOpen, if_true, Option.bind_eq_bind, Option.bind_eq_some_iff] at done
  obtain ⟨inner, played, done⟩ := done
  simp only [plainInner, replays.1, replays.2, pcap, Bool.false_eq_true, if_false, runPcap, Option.bind_eq_bind,
    Option.bind_eq_some_iff] at played
  obtain ⟨source, replayed, played⟩ := played
  obtain rfl := Option.some.inj played
  obtain rfl := Option.some.inj done
  obtain ⟨source', replayed', code, fed⟩ := replayRun_same replayed fun _ _ => []
  let emitted := (pipelineRun (pipelineInit (o.mode host) o.payloadType o.ssrc) source.fed).2
  have quiet : sendingOptions o cfg = { o with plcXfade := 0, plcFade := 0 } :=
    if_neg (by simp [replays.2])
  have packets := delivery.media
  rw [quiet] at packets
  have sent : datagramsOf (.media 0) (.opened (.media 0) (plainSender o cfg) ::
      .used (.media 0) (.tos (dscpTos cfg.mediaDscp)) :: source.trace ++ [.closed (.media 0)]) =
        emitted.map (·.buf) := by
    rw [datagramsOf, packets, List.filterMap_cons_none rfl, List.filterMap_map]
    exact List.filterMap_some
  have counting : countPlain env (o.mode host) o.payloadType o.ssrc path =
      (CInt.checked emitted.length).bind fun total =>
        (CInt.checked (emitted.countP (·.concealed))).bind fun concealed =>
          some ⟨source'.rc, source'.trace, "rtp_packets ".toList ++ decimal total ++ " concealed ".toList ++
            decimal concealed ++ "\n".toList⟩ := by
    simp only [countPlain, replayed', fed, Option.bind_eq_bind, Option.bind_some]
    rfl
  rw [sent, List.length_map, counting]
  split
  next inRange =>
    have few : emitted.countP (·.concealed) ≤ emitted.length := List.countP_le_length
    have total : CInt.checked emitted.length = some (emitted.length : Int) :=
      CInt.checked_eq_some.mpr ⟨inRange, rfl⟩
    have concealed : CInt.checked (emitted.countP (·.concealed)) =
        some (emitted.countP (·.concealed) : Int) := by
      unfold CInt.InRange at inRange
      exact CInt.checked_eq_some.mpr ⟨⟨by omega, by omega⟩, rfl⟩
    have words : " concealed ".toList = " ".toList ++ "concealed ".toList := rfl
    refine ⟨_, emitted.countP (·.concealed), by rw [total, concealed]; rfl, code, ?_⟩
    simp only [words, List.append_assoc]
  next beyond => simp [CInt.checked, beyond]

theorem datagramsOf_cons (d : Descriptor) (event : Event Descriptor Opening Action) (trace : Trace) :
    datagramsOf d (event :: trace) = datagramsOf d [event] ++ datagramsOf d trace := by
  rw [datagramsOf, ← List.singleton_append, usesOf_append, List.filterMap_append]
  rfl

theorem datagramsOf_send (d k : Descriptor) (bytes : List UInt8) :
    datagramsOf d [sendPacket k bytes] = if k = d then [bytes] else [] := by
  rw [datagramsOf, sendPacket, usesOf_used]
  by_cases same : k = d <;> simp [same]

-- A datagram is counted on the one socket that carries it.
theorem mediaDatagrams_event {n : Nat} (event : Event Descriptor Opening Action)
    (known : ∀ i, n ≤ i → datagramsOf (.media i) [event] = []) :
    mediaDatagrams [event] = ∑ i ∈ Finset.range n, (datagramsOf (.media i) [event]).length := by
  have quiet (none : ∀ i, datagramsOf (.media i) [event] = []) :
      ∑ i ∈ Finset.range n, (datagramsOf (.media i) [event]).length = 0 := by simp [none]
  have other (d : Descriptor) (what : Action) (silent : ∀ bytes, what ≠ .datagram bytes) (i : Nat) :
      datagramsOf (.media i) [.used d what] = [] :=
    datagramsOf_eq_nil.mpr fun bytes member =>
      silent bytes (Event.used.inj (List.mem_singleton.mp member)).2.symm
  cases event with
  | opened d as => exact (quiet fun _ => rfl).symm
  | closed d => exact (quiet fun _ => rfl).symm
  | used d what =>
    cases what with
    | tos | reply | nonblock | received | detected | header | record =>
      rw [quiet (other d _ nofun)]
      cases d <;> rfl
    | datagram bytes =>
      have sent (i : Nat) := datagramsOf_send (.media i) d bytes
      unfold sendPacket at sent
      cases d with
      | media j =>
        have inside : j ∈ Finset.range n := by
          rw [Finset.mem_range]
          by_contra beyond
          simpa [sent] using known j (not_lt.mp beyond)
        have each (i : Nat) : (datagramsOf (.media i) [.used (.media j) (.datagram bytes)]).length =
            if j = i then 1 else 0 := by
          rw [sent]
          by_cases own : j = i <;> simp [own]
        simp only [each, Finset.sum_ite_eq, if_pos inside]
        rfl
      | sap => exact (quiet fun i => (sent i).trans (if_neg nofun)).symm
      | capture => exact (quiet fun i => (sent i).trans (if_neg nofun)).symm
      | replay => exact (quiet fun i => (sent i).trans (if_neg nofun)).symm
      | bus => exact (quiet fun i => (sent i).trans (if_neg nofun)).symm

theorem mediaDatagrams_sum (n : Nat) (trace : Trace) (known : ∀ i, n ≤ i → datagramsOf (.media i) trace = []) :
    mediaDatagrams trace = ∑ i ∈ Finset.range n, (datagramsOf (.media i) trace).length := by
  induction trace with
  | nil => simp [mediaDatagrams, datagramsOf]
  | cons event trace ih =>
    have split (i : Nat) (beyond : n ≤ i) :
        datagramsOf (.media i) [event] = [] ∧ datagramsOf (.media i) trace = [] := by
      have none := known i beyond
      rwa [datagramsOf_cons, List.append_eq_nil_iff] at none
    have later := ih fun i beyond => (split i beyond).2
    have own := mediaDatagrams_event event fun i beyond => (split i beyond).1
    simp only [datagramsOf_cons _ event trace, List.length_append, Finset.sum_add_distrib, ← own, ← later]
    rw [mediaDatagrams, mediaDatagrams, mediaDatagrams, List.countP_cons, List.countP_singleton, Nat.add_comm]

theorem countDante_counts (modes : host.LibreacModes) {path : List Char} (pcap : s.pcap = some path)
    {sent : DanteRun} (done : runDante host s.danteOptions (s.danteLaunch false) env = some sent)
    (complete : sent.rc = 0) :
    ∃ counted flows, mediaDatagrams sent.trace ≤ 2147483647 ∧ countDante host s env = some counted ∧
      counted.rc = 0 ∧
      counted.printed = "rtp_packets ".toList ++ decimal (mediaDatagrams sent.trace) ++ " ".toList ++
        ("flows ".toList ++ decimal (flows : Int) ++ "\n".toList) := by
  have delivery := runDante_delivers rfl done
  cases opened : danteFlows host s.danteOptions with
  | none =>
    rw [opened] at delivery
    rw [complete] at delivery
    exact absurd delivery.1 (by decide)
  | some flows =>
    rw [opened] at delivery
    obtain ⟨n, accepted, built⟩ := danteFlows_built opened
    obtain ⟨counted, counts, code, _, inRange, count⟩ := runDante_counts (s.danteLaunch false)
      (s.danteLaunch true) modes opened pcap rfl done rfl pcap
    have sum := mediaDatagrams_sum flows.length sent.trace fun i beyond => by
      have closed := delivery.sockets i
      rw [if_neg (not_lt.mpr beyond)] at closed
      exact datagramsOf_silent ((runDante_balanced done).unused (Set.notMem_empty _) closed)
    rw [count, ← sum] at inRange
    refine ⟨⟨counted.rc, counted.trace, _⟩, n, Int.ofNat_le.mp inRange.2, ?_, code.trans complete, rfl⟩
    have words : " flows ".toList = " ".toList ++ "flows ".toList := rfl
    simp only [countDante, built, counts, Option.bind_eq_bind, Option.bind_some, if_neg (not_lt.mpr accepted),
      count, ← sum, words, List.append_assoc]
    rfl

/-- A command line that sends a file to its end. -/
structure Settings.Replays (s : Settings) (path : List Char) : Prop where
  sends : s.Sends
  pcap : s.pcap = some path
  plain : s.profileDante = false → s.genTone = false ∧ s.iface = none

theorem dispatch_counts {path : List Char} (replays : s.Replays path) :
    dispatch host env (Flag.countRtp.update s) =
      if s.profileDante then countDante host (Flag.countRtp.update s) env
      else countPlain env (s.danteOptions.mode host) s.payloadType s.ssrc path := by
  simp only [dispatch, Flag.update, replays.sends.printSdp, replays.sends.dumpSamples, replays.pcap,
    Bool.false_eq_true, if_false, if_true]
  rfl

theorem Settings.options_payloadType (s : Settings) (ip : List Char) (port : UInt16) :
    (s.options ip port).payloadType = s.payloadType := by
  have byte := s.payloadType.toNat_lt
  apply UInt8.toNat.inj
  simp only [Options.payloadType, Settings.options, UInt8.ofInt, UInt8.toNat_ofNat']
  omega

theorem Settings.plainLaunch_replays (s : Settings) {path udp : List Char} (replays : s.Replays path)
    (plain : s.profileDante = false) :
    (s.plainLaunch udp).genTone = false ∧ (s.plainLaunch udp).iface = none := replays.plain plain

theorem resolveRate_offline (offline : s.iface = none) : resolveRate env s = (s, []) := by
  unfold resolveRate
  rw [offline]

/-- With `--count-rtp` at its end, a command line that sends a file prints how many media datagrams it sends,
and sends none. The count is an `int`: beyond its range there is no result. -/
theorem mainProcess_counts (modes : host.LibreacModes) (parsed : parseArgs env.long {} argv = .settings s)
    {path : List Char} (replays : s.Replays path) (done : mainProcess host env argv = some run)
    (complete : run.rc = 0) :
    if mediaDatagrams run.trace ≤ 2147483647 then
      ∃ counted rest, mainProcess host env (argv ++ [Flag.countRtp.text]) = some counted ∧ counted.rc = 0 ∧
        (∀ d, datagramsOf d counted.trace = []) ∧
        counted.printed = "rtp_packets ".toList ++ decimal (mediaDatagrams run.trace) ++ " ".toList ++ rest
    else mainProcess host env (argv ++ [Flag.countRtp.text]) = none := by
  have counts := parseArgs_append_flag parsed .countRtp
  cases dante : s.profileDante with
  | true =>
    have started := mainProcess_dante parsed replays.sends dante done
    rw [if_neg (by simp [replays.pcap])] at started
    obtain ⟨sent, runs, rfl⟩ := started
    obtain ⟨counted, flows, inRange, counting, code, printed⟩ :=
      countDante_counts (s := Flag.countRtp.update s) modes replays.pcap runs complete
    rw [if_pos inRange]
    refine ⟨counted, _, ?_, code, (countDante_quiet (s := Flag.countRtp.update s) replays.pcap counting).silent,
      printed⟩
    rw [mainProcess_settings counts, resolveRate_dante (s := Flag.countRtp.update s) dante,
      dispatch_counts replays, if_pos dante, counting]
    rfl
  | false =>
    obtain ⟨noTone, noIface⟩ := replays.plain dante
    obtain ⟨udp, ip, port, sent, _, _, runs, rfl⟩ | rfl := mainProcess_plain parsed replays.sends dante done
    next =>
      rw [resolveRate_offline noIface] at runs ⊢
      obtain ⟨balanced, delivery⟩ := runPlain_delivers runs
      split at delivery
      next isOpen =>
        have counted := countPlain_counts (s.plainLaunch_replays replays dante) replays.pcap isOpen runs
        have sum := mediaDatagrams_sum 1 sent.trace fun i beyond => by
          have closed := delivery.sockets i
          rw [if_neg (Nat.one_le_iff_ne_zero.mp beyond)] at closed
          exact datagramsOf_silent (balanced.unused (Set.notMem_empty _) closed)
        have main : mainProcess host env (argv ++ [Flag.countRtp.text]) =
            countPlain env ((s.options ip port).mode host) (s.options ip port).payloadType
              (s.options ip port).ssrc path := by
          rw [mainProcess_settings counts, resolveRate_offline (s := Flag.countRtp.update s) noIface,
            dispatch_counts replays, if_neg (by simp [dante]), s.options_payloadType]
          exact Option.map_id'
        rw [Finset.sum_range_one] at sum
        rw [List.nil_append, main, sum]
        have range : CInt.InRange (datagramsOf (.media 0) sent.trace).length ↔
            (datagramsOf (.media 0) sent.trace).length ≤ 2147483647 := by
          unfold CInt.InRange
          omega
        simp only [range] at counted
        split
        next fits =>
          rw [if_pos fits] at counted
          obtain ⟨counted, concealed, counting, code, printed⟩ := counted
          exact ⟨counted, "concealed ".toList ++ decimal concealed ++ "\n".toList, counting,
            code.trans complete, (countPlain_quiet counting).silent, printed⟩
        next beyond =>
          rw [if_neg beyond] at counted
          exact counted
      next => exact absurd (delivery.1.symm.trans complete) (by decide)
    next => cases complete

theorem mainProcess_counts_busy : ∃ run counted rest,
    mainProcess libreacHost busySurroundings plainArguments = some run ∧ mediaDatagrams run.trace = 5 ∧
      mainProcess libreacHost busySurroundings (plainArguments ++ ["--count-rtp".toList]) = some counted ∧
      counted.printed = "rtp_packets 5 ".toList ++ rest := by
  obtain ⟨run, done, complete, five⟩ := plainArguments_runs
  have counts := mainProcess_counts libreacHost_modes (plainArguments_parsed _)
    ⟨⟨rfl, rfl, rfl⟩, rfl, fun _ => ⟨rfl, rfl⟩⟩ done complete
  rw [five, if_pos (by decide)] at counts
  obtain ⟨counted, rest, counting, _, _, printed⟩ := counts
  exact ⟨run, counted, rest, done, five, counting, printed⟩

end ReacAes67
