import ReacAes67.Sdp

set_option autoImplicit false

/-!
# Descriptions read back

`sdp_build` prints into a buffer in up to three stages and gives up at the first
that does not fit. What it leaves there is the whole description, from which
every parameter can be read again.
-/

namespace ReacAes67

open BoundedPrint TextLines

def descriptionHead (p : SdpParams) : List Char :=
  sessionLines p ++ (endLine "t=0 0".toList ++
    (endLine (mediaLine p) ++ (endLine (rtpmapLine p) ++ endLine (ptimeLine p))))

def sdpText (p : SdpParams) : List Char :=
  descriptionHead p ++ trailer p ++ endLine "a=recvonly".toList

def clockStage (cap : Nat) (p : SdpParams) (off : Nat) (out : Memory) : Option Nat × Memory :=
  match p.tsRefclk with
  | some clock => printStage cap off (clockLines p clock) out
  | none => (some off, out)

def sdpStages (cap : Nat) (p : SdpParams) (out : Memory) : Option Nat × Memory :=
  andThen (printStage cap 0 (descriptionHead p) out) fun off out =>
    andThen (clockStage cap p off out) fun off out =>
      printStage cap off (endLine "a=recvonly".toList) out

-- `sdp_build` with its result and the buffer it leaves.
def sdpBuildInto (cap : Nat) (p : SdpParams) (out : Memory) : Int × Memory :=
  match sdpStages cap p out with
  | (some off, out) => (off, out)
  | (none, out) => (-1, out)

/-- One of the prints is longer than the result of `snprintf` can say. -/
def SdpParams.Overlong (p : SdpParams) : Prop :=
  intMax < (descriptionHead p).length ∨ intMax < (trailer p).length

theorem appendClock_eq_some {cap : Nat} {p : SdpParams} {out whole : List Char}
    (inside : out.length < cap) :
    appendClock cap p out = some whole ↔
      (trailer p).length ≤ intMax ∧ (out ++ trailer p).length < cap ∧ whole = out ++ trailer p := by
  cases clock : p.tsRefclk with
  | none =>
    simp only [appendClock, trailer, clock, List.append_nil, List.length_nil, Option.some.injEq]
    constructor
    next => exact fun same => ⟨Nat.zero_le _, inside, same.symm⟩
    next => exact fun fits => fits.2.2.symm
  | some text =>
    simp only [appendClock, trailer, clock]
    exact snprintfAppend_eq_some

theorem sdpBuild_eq_some {cap : Nat} {p : SdpParams} {text : List Char} :
    sdpBuild cap p = some text ↔ ¬p.Overlong ∧ (sdpText p).length < cap ∧ text = sdpText p := by
  have recvonly : (endLine "a=recvonly".toList).length ≤ intMax := by decide
  have head : snprintfAppend cap [] (descriptionHead p) = snprintfAppend cap []
      (sessionLines p ++ (endLine "t=0 0".toList ++
        (endLine (mediaLine p) ++ (endLine (rtpmapLine p) ++ endLine (ptimeLine p))))) := rfl
  simp only [sdpBuild, ← head, Option.bind_eq_bind, Option.bind_eq_some_iff]
  constructor
  next =>
    rintro ⟨out, headFits, clocked, clockFits, lastFits⟩
    obtain ⟨headShort, headRoom, rfl⟩ := snprintfAppend_eq_some.mp headFits
    obtain ⟨clockShort, clockRoom, rfl⟩ := (appendClock_eq_some headRoom).mp clockFits
    obtain ⟨lastShort, lastRoom, rfl⟩ := snprintfAppend_eq_some.mp lastFits
    refine ⟨?_, lastRoom, rfl⟩
    rintro (headLong | clockLong) <;> omega
  next =>
    rintro ⟨short, room, rfl⟩
    rw [SdpParams.Overlong, not_or, Nat.not_lt, Nat.not_lt] at short
    have lengths : (sdpText p).length =
        (descriptionHead p).length + (trailer p).length + (endLine "a=recvonly".toList).length := by
      rw [sdpText, List.length_append, List.length_append]
    have headRoom : ([] ++ descriptionHead p).length < cap := by rw [List.nil_append]; omega
    have clockRoom : ([] ++ descriptionHead p ++ trailer p).length < cap := by
      rw [List.nil_append, List.length_append]
      omega
    exact ⟨_, snprintfAppend_eq_some.mpr ⟨short.1, headRoom, rfl⟩, _,
      (appendClock_eq_some headRoom).mpr ⟨short.2, clockRoom, rfl⟩,
      snprintfAppend_eq_some.mpr ⟨recvonly, room, rfl⟩⟩

theorem sdpBuild_eq_none {cap : Nat} {p : SdpParams} :
    sdpBuild cap p = none ↔ p.Overlong ∨ cap ≤ (sdpText p).length := by
  rw [Option.eq_none_iff_forall_ne_some]
  constructor
  next =>
    intro never
    by_cases full : cap ≤ (sdpText p).length
    next => exact Or.inr full
    next =>
      by_cases long : p.Overlong
      next => exact Or.inl long
      next => exact absurd (sdpBuild_eq_some.mpr ⟨long, Nat.lt_of_not_le full, rfl⟩) (never (sdpText p))
  next =>
    intro fails text built
    obtain ⟨short, room, -⟩ := sdpBuild_eq_some.mp built
    rcases fails with long | full
    next => exact short long
    next => omega

theorem sdpText_length (p : SdpParams) :
    (sdpText p).length = p.sessionName.length + (sdpText { p with sessionName := [] }).length := by
  have session : (sessionLines p).length =
      p.sessionName.length + (sessionLines { p with sessionName := [] }).length := by
    unfold sessionLines endLine
    simp only [List.length_append, List.length_nil]
    omega
  have rest : (sdpText p).length + (sessionLines { p with sessionName := [] }).length =
      (sdpText { p with sessionName := [] }).length + (sessionLines p).length := by
    unfold sdpText descriptionHead
    simp only [List.length_append]
    have media : mediaLine { p with sessionName := [] } = mediaLine p := rfl
    have rtpmap : rtpmapLine { p with sessionName := [] } = rtpmapLine p := rfl
    have ptime : ptimeLine { p with sessionName := [] } = ptimeLine p := rfl
    have clock : trailer { p with sessionName := [] } = trailer p := rfl
    rw [media, rtpmap, ptime, clock]
    omega
  omega

theorem name_le_head (p : SdpParams) : p.sessionName.length ≤ (descriptionHead p).length := by
  unfold descriptionHead sessionLines endLine
  simp only [List.length_append]
  omega

theorem clockStage_prints {cap : Nat} {p : SdpParams} {out : List Char} {mem : Memory}
    (terminated : Terminated mem out) (inside : out.length ≤ cap) :
    Prints cap mem (clockStage cap p out.length mem) (appendClock cap p out) := by
  cases clock : p.tsRefclk with
  | none =>
    simp only [clockStage, appendClock, clock]
    exact Prints.pure terminated
  | some text =>
    simp only [clockStage, appendClock, clock]
    exact Prints.stage terminated.holds inside _

/-- The stages in memory do what the description's model does with texts. -/
theorem sdpStages_prints (cap : Nat) (p : SdpParams) (mem : Memory) :
    Prints cap mem (sdpStages cap p mem) (sdpBuild cap p) := by
  have first : Prints cap mem (printStage cap 0 (descriptionHead p) mem)
      (snprintfAppend cap [] (descriptionHead p)) :=
    Prints.stage (holds_nil mem) (Nat.zero_le cap) _
  refine first.andThen fun out appended mem terminated => ?_
  have room : out.length < cap := by
    obtain ⟨-, room, rfl⟩ := snprintfAppend_eq_some.mp appended
    exact room
  refine (clockStage_prints terminated (Nat.le_of_lt room)).andThen fun clocked appended mem terminated => ?_
  have clockedRoom : clocked.length < cap := by
    obtain ⟨-, clockedRoom, rfl⟩ := (appendClock_eq_some room).mp appended
    exact clockedRoom
  exact Prints.stage terminated.holds (Nat.le_of_lt clockedRoom) _

theorem sdpBuildInto_prints (cap : Nat) (p : SdpParams) (out : Memory) :
    (sdpBuildInto cap p out).1 = ((sdpBuild cap p).map fun text => (text.length : Int)).getD (-1) ∧
      (sdpBuildInto cap p out).2 = (sdpStages cap p out).2 := by
  have length := (sdpStages_prints cap p out).length
  cases stages : sdpStages cap p out with
  | mk off mem =>
    rw [stages] at length
    unfold sdpBuildInto
    rw [stages]
    obtain rfl : off = (sdpBuild cap p).map List.length := length
    cases sdpBuild cap p with
    | none => exact ⟨rfl, rfl⟩
    | some text => exact ⟨rfl, rfl⟩

theorem sdpBuildInto_refused {cap : Nat} {p : SdpParams} {out : Memory} :
    (sdpBuildInto cap p out).1 = -1 ↔ sdpBuild cap p = none := by
  rw [(sdpBuildInto_prints cap p out).1]
  cases sdpBuild cap p with
  | none => simp
  | some text => simp

theorem sdpBuildInto_outside {cap i : Nat} (p : SdpParams) (out : Memory) (outside : cap ≤ i) :
    (sdpBuildInto cap p out).2 i = out i := by
  rw [(sdpBuildInto_prints cap p out).2]
  exact (sdpStages_prints cap p out).outside i outside

theorem sdpBuildInto_text {cap : Nat} {p : SdpParams} {out : Memory}
    (built : (sdpBuildInto cap p out).1 ≠ -1) :
    (sdpBuildInto cap p out).1 = (sdpText p).length ∧ Terminated (sdpBuildInto cap p out).2 (sdpText p) := by
  obtain ⟨text, fits⟩ := Option.ne_none_iff_exists'.mp (mt sdpBuildInto_refused.mpr built)
  obtain ⟨-, -, rfl⟩ := sdpBuild_eq_some.mp fits
  rw [(sdpBuildInto_prints cap p out).1, (sdpBuildInto_prints cap p out).2, fits]
  exact ⟨rfl, (sdpStages_prints cap p out).terminated _ fits⟩

/-- Strings that stay on their line, with the group ended by the first slash. -/
structure SdpParams.Printable (p : SdpParams) : Prop where
  name : CString p.sessionName ∧ Unbroken p.sessionName
  origin : CString p.originIp ∧ Unbroken p.originIp
  group : CString p.mcastIp ∧ Unbroken p.mcastIp
  slash : '/' ∉ p.mcastIp
  clock : ∀ clock ∈ p.tsRefclk, CString clock ∧ Unbroken clock

/-- Everything a description says, the payload type at both of its places. -/
structure SdpDescription where
  originIp : List Char
  sessionName : List Char
  mcastIp : List Char
  ttl : Int
  mcastPort : Int
  mediaType : Int
  mapType : Int
  rate : Int
  channels : Int
  ptime : Int
  clock : Option (List Char × Int)
deriving DecidableEq

def SdpParams.description (p : SdpParams) : SdpDescription :=
  { originIp := p.originIp
    sessionName := p.sessionName
    mcastIp := p.mcastIp
    ttl := p.ttl
    mcastPort := p.mcastPort
    mediaType := p.payloadType
    mapType := p.payloadType
    rate := p.rate
    channels := p.channels
    ptime := p.ptime
    clock := p.tsRefclk.map fun clock => (clock, p.mediaclkDirect) }

def parseConnection (line : List Char) : Option (List Char × Int) := do
  let rest ← "c=IN IP4 ".toList.isPrefixOf? line
  let number ← "/".toList.isPrefixOf? (rest.dropWhile (· != '/'))
  let ttl ← readWhole number
  some (rest.takeWhile (· != '/'), ttl)

def parseMedia (line : List Char) : Option (Int × Int) := do
  let rest ← "m=audio ".toList.isPrefixOf? line
  let (port, rest) ← readInt rest
  let rest ← " RTP/AVP ".toList.isPrefixOf? rest
  let payloadType ← readWhole rest
  some (port, payloadType)

def parseRtpmap (line : List Char) : Option (Int × Int × Int) := do
  let rest ← "a=rtpmap:".toList.isPrefixOf? line
  let (payloadType, rest) ← readInt rest
  let rest ← " L24/".toList.isPrefixOf? rest
  let (rate, rest) ← readInt rest
  let rest ← "/".toList.isPrefixOf? rest
  let channels ← readWhole rest
  some (payloadType, rate, channels)

def parsePtime (line : List Char) : Option Int := do
  let rest ← "a=ptime:".toList.isPrefixOf? line
  readWhole rest

-- The lines after the packet time: the clock's two, or none, and the direction.
def parseTail : List (List Char) → Option (Option (List Char × Int))
  | [last] => if last = "a=recvonly".toList then some none else none
  | [refclk, mediaclk, last] => do
    let clock ← "a=ts-refclk:ptp=IEEE1588-2008:".toList.isPrefixOf? refclk
    let rest ← "a=mediaclk:direct=".toList.isPrefixOf? mediaclk
    let direct ← readWhole rest
    if last = "a=recvonly".toList then some (some (clock, direct)) else none
  | _ => none

def parseLines : List (List Char) → Option SdpDescription
  | version :: origin :: name :: connection :: time :: media :: rtpmap :: ptime :: more => do
    let originIp ← "o=- 1 1 IN IP4 ".toList.isPrefixOf? origin
    let sessionName ← "s=".toList.isPrefixOf? name
    let (mcastIp, ttl) ← parseConnection connection
    let (mcastPort, mediaType) ← parseMedia media
    let (mapType, rate, channels) ← parseRtpmap rtpmap
    let ptime ← parsePtime ptime
    let clock ← parseTail more
    if version = "v=0".toList ∧ time = "t=0 0".toList then
      some { originIp, sessionName, mcastIp, ttl, mcastPort, mediaType, mapType, rate, channels, ptime
             clock }
    else none
  | _ => none

def parseDescription (text : List Char) : Option SdpDescription := parseLines (linesOf text)

theorem parseConnection_line {group : List Char} (slash : '/' ∉ group) (ttl : Int) :
    parseConnection ("c=IN IP4 ".toList ++ group ++ "/".toList ++ decimal ttl) = some (group, ttl) := by
  have before : ∀ c ∈ group, (c != '/') = true := by
    intro c member
    simpa using fun same : c = '/' => slash (same ▸ member)
  have taken : (group ++ ("/".toList ++ decimal ttl)).takeWhile (· != '/') = group := by
    rw [List.takeWhile_append_of_pos before]
    simp
  have dropped : (group ++ ("/".toList ++ decimal ttl)).dropWhile (· != '/') = "/".toList ++ decimal ttl := by
    rw [List.dropWhile_append_of_pos before]
    simp
  rw [List.append_assoc, List.append_assoc]
  simp only [parseConnection, isPrefixOf?_append, taken, dropped, readWhole_decimal, Option.bind_eq_bind,
    Option.bind_some]

theorem parseMedia_mediaLine (p : SdpParams) :
    parseMedia (mediaLine p) = some (p.mcastPort, p.payloadType) := by
  have port := readInt_decimal p.mcastPort (" RTP/AVP ".toList ++ decimal p.payloadType) (by simp)
  unfold mediaLine
  simp only [parseMedia, isPrefixOf?_append, port, readWhole_decimal, Option.bind_eq_bind,
    Option.bind_some]

theorem parseRtpmap_rtpmapLine (p : SdpParams) :
    parseRtpmap (rtpmapLine p) = some (p.payloadType, p.rate, p.channels) := by
  have mapped := readInt_decimal p.payloadType
    (" L24/".toList ++ (decimal p.rate ++ ("/".toList ++ decimal p.channels))) (by simp)
  have rate := readInt_decimal p.rate ("/".toList ++ decimal p.channels) (by simp)
  unfold rtpmapLine
  simp only [parseRtpmap, isPrefixOf?_append, mapped, rate, readWhole_decimal,
    Option.bind_eq_bind, Option.bind_some]

theorem parsePtime_ptimeLine (p : SdpParams) : parsePtime (ptimeLine p) = some p.ptime := by
  unfold ptimeLine
  simp only [parsePtime, isPrefixOf?_append, readWhole_decimal, Option.bind_eq_bind,
    Option.bind_some]

def tailLines (p : SdpParams) : List (List Char) :=
  match p.tsRefclk with
  | some clock =>
    ["a=ts-refclk:ptp=IEEE1588-2008:".toList ++ clock,
      "a=mediaclk:direct=".toList ++ decimal p.mediaclkDirect, "a=recvonly".toList]
  | none => ["a=recvonly".toList]

def sdpLines (p : SdpParams) : List (List Char) :=
  ["v=0".toList, "o=- 1 1 IN IP4 ".toList ++ p.originIp, "s=".toList ++ p.sessionName,
    "c=IN IP4 ".toList ++ p.mcastIp ++ "/".toList ++ decimal p.ttl, "t=0 0".toList, mediaLine p, rtpmapLine p,
    ptimeLine p] ++ tailLines p

theorem trailer_flatMap (p : SdpParams) :
    (tailLines p).flatMap endLine = trailer p ++ endLine "a=recvonly".toList := by
  cases clock : p.tsRefclk with
  | none => simp only [tailLines, trailer, clock, List.flatMap_cons, List.flatMap_nil, List.append_nil,
      List.nil_append]
  | some text =>
    simp only [tailLines, trailer, clock, clockLines, List.flatMap_cons, List.flatMap_nil, List.append_nil,
      List.append_assoc]

theorem sdpText_flatMap (p : SdpParams) : sdpText p = (sdpLines p).flatMap endLine := by
  rw [sdpLines, List.flatMap_append, trailer_flatMap]
  simp only [sdpText, descriptionHead, sessionLines, List.flatMap_cons, List.flatMap_nil, List.append_nil,
    List.append_assoc]

theorem tailLines_separable {p : SdpParams} (printable : p.Printable) : Separable (tailLines p) := by
  have recvonly : Unbroken "a=recvonly".toList ∧ "a=recvonly".toList ≠ [] :=
    ⟨literal_unbroken _ (by decide), by simp⟩
  cases clock : p.tsRefclk with
  | none => simpa [tailLines, clock, Separable] using recvonly
  | some text =>
    have refclk : Unbroken ("a=ts-refclk:ptp=IEEE1588-2008:".toList ++ text) :=
      (literal_unbroken _ (by decide)).append (printable.clock text clock).2
    have mediaclk : Unbroken ("a=mediaclk:direct=".toList ++ decimal p.mediaclkDirect) :=
      (literal_unbroken _ (by decide)).append (decimal_unbroken _)
    intro line member
    simp only [tailLines, clock, List.mem_cons, List.not_mem_nil, or_false] at member
    rcases member with rfl | rfl | rfl
    next => exact ⟨refclk, by simp⟩
    next => exact ⟨mediaclk, by simp⟩
    next => exact recvonly

theorem sdpLines_separable {p : SdpParams} (printable : p.Printable) : Separable (sdpLines p) := by
  have origin : Unbroken ("o=- 1 1 IN IP4 ".toList ++ p.originIp) :=
    (literal_unbroken _ (by decide)).append printable.origin.2
  have name : Unbroken ("s=".toList ++ p.sessionName) :=
    (literal_unbroken _ (by decide)).append printable.name.2
  have group : Unbroken ("c=IN IP4 ".toList ++ p.mcastIp ++ "/".toList ++ decimal p.ttl) :=
    (((literal_unbroken _ (by decide)).append printable.group.2).append
      (literal_unbroken _ (by decide))).append (decimal_unbroken _)
  intro line member
  simp only [sdpLines, List.cons_append, List.nil_append, List.mem_cons] at member
  rcases member with rfl | rfl | rfl | rfl | rfl | rfl | rfl | rfl | member
  next => exact ⟨literal_unbroken _ (by decide), by simp⟩
  next => exact ⟨origin, by simp⟩
  next => exact ⟨name, by simp⟩
  next => exact ⟨group, by simp⟩
  next => exact ⟨literal_unbroken _ (by decide), by simp⟩
  next => exact ⟨(mediaLine_graphic p).unbroken, by unfold mediaLine; simp⟩
  next => exact ⟨(rtpmapLine_graphic p).unbroken, by unfold rtpmapLine; simp⟩
  next => exact ⟨(ptimeLine_graphic p).unbroken, by unfold ptimeLine; simp⟩
  next => exact tailLines_separable printable line member

theorem parseTail_tailLines (p : SdpParams) :
    parseTail (tailLines p) = some (p.tsRefclk.map fun clock => (clock, p.mediaclkDirect)) := by
  cases clock : p.tsRefclk with
  | none => simp only [tailLines, clock, parseTail, if_true, Option.map_none]
  | some text =>
    simp only [tailLines, clock, parseTail, isPrefixOf?_append, readWhole_decimal, Option.bind_eq_bind,
      Option.bind_some, if_true, Option.map_some]

/-- Every parameter can be read from the text again. -/
theorem parseDescription_sdpText {p : SdpParams} (printable : p.Printable) :
    parseDescription (sdpText p) = some p.description := by
  have lines : linesOf (sdpText p) = sdpLines p := by
    rw [sdpText_flatMap]
    exact (sdpLines_separable printable).linesOf
  rw [parseDescription, lines, sdpLines]
  simp only [List.cons_append, List.nil_append, parseLines, isPrefixOf?_append,
    parseConnection_line printable.slash, parseMedia_mediaLine, parseRtpmap_rtpmapLine, parsePtime_ptimeLine,
    parseTail_tailLines, Option.bind_eq_bind, Option.bind_some, and_self, if_true]
  rfl

theorem literal_cString (text : List Char)
    (bytes : text.all (fun c => decide (0 < c.toNat) && decide (c.toNat < 256)) = true) : CString text := by
  intro c member
  simpa using List.all_eq_true.mp bytes c member

theorem graphic_cString {text : List Char} (graphic : Graphic text) : CString text := fun c member =>
  ⟨Nat.lt_of_lt_of_le (by decide) (graphic c member).1, Nat.lt_trans (graphic c member).2 (by decide)⟩

theorem cString_flatMap {lines : List (List Char)} (strings : ∀ line ∈ lines, CString line) :
    CString (lines.flatMap endLine) := by
  induction lines with
  | nil => simp [CString]
  | cons line lines ih =>
    have first := strings line List.mem_cons_self
    have rest := ih fun line member => strings line (List.mem_cons_of_mem _ member)
    exact (first.append (literal_cString _ (by decide))).append rest

theorem sdpLines_cString {p : SdpParams} (printable : p.Printable) : ∀ line ∈ sdpLines p, CString line := by
  have tail : ∀ line ∈ tailLines p, CString line := by
    cases clock : p.tsRefclk with
    | none => simpa [tailLines, clock] using literal_cString "a=recvonly".toList (by decide)
    | some text =>
      simp only [tailLines, clock, List.forall_mem_cons]
      exact ⟨(literal_cString _ (by decide)).append (printable.clock text clock).1,
        (literal_cString _ (by decide)).append (graphic_cString (decimal_graphic _)),
        literal_cString _ (by decide), by simp⟩
  simp only [sdpLines, List.cons_append, List.nil_append, List.forall_mem_cons]
  exact ⟨literal_cString _ (by decide), (literal_cString _ (by decide)).append printable.origin.1,
    (literal_cString _ (by decide)).append printable.name.1,
    (((literal_cString _ (by decide)).append printable.group.1).append (literal_cString _ (by decide))).append
      (graphic_cString (decimal_graphic _)),
    literal_cString _ (by decide), graphic_cString (mediaLine_graphic p),
    graphic_cString (rtpmapLine_graphic p), graphic_cString (ptimeLine_graphic p), tail⟩

theorem sdpText_cString {p : SdpParams} (printable : p.Printable) : CString (sdpText p) := by
  rw [sdpText_flatMap]
  exact cString_flatMap (sdpLines_cString printable)

end ReacAes67
