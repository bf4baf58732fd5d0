import ReacAes67.Shared.BoundedPrint
import ReacAes67.Shared.TextLines

set_option autoImplicit false

/-!
# Session descriptions

`sdp_build` prints the description of a stream and `sap_build` wraps it for its
announcement. A receiver reads the description line by line, the last line of a
kind being the one that counts.
-/

namespace ReacAes67

open BoundedPrint TextLines

structure SdpParams where
  sessionName : List Char
  originIp : List Char
  mcastIp : List Char
  mcastPort : Int
  payloadType : Int
  rate : Int
  channels : Int
  ttl : Int
  ptimeMs : Int
  tsRefclk : Option (List Char)
  mediaclkDirect : Int

def SdpParams.ptime (p : SdpParams) : Int := if p.ptimeMs > 0 then p.ptimeMs else 1

def mediaLine (p : SdpParams) : List Char :=
  "m=audio ".toList ++ (decimal p.mcastPort ++ (" RTP/AVP ".toList ++ decimal p.payloadType))

def rtpmapLine (p : SdpParams) : List Char :=
  "a=rtpmap:".toList ++ (decimal p.payloadType ++ (" L24/".toList ++
    (decimal p.rate ++ ("/".toList ++ decimal p.channels))))

def ptimeLine (p : SdpParams) : List Char := "a=ptime:".toList ++ decimal p.ptime

def sessionLines (p : SdpParams) : List Char :=
  endLine "v=0".toList ++ endLine ("o=- 1 1 IN IP4 ".toList ++ p.originIp) ++
    endLine ("s=".toList ++ p.sessionName) ++
    endLine ("c=IN IP4 ".toList ++ p.mcastIp ++ "/".toList ++ decimal p.ttl)

def clockLines (p : SdpParams) (clock : List Char) : List Char :=
  endLine ("a=ts-refclk:ptp=IEEE1588-2008:".toList ++ clock) ++
    endLine ("a=mediaclk:direct=".toList ++ decimal p.mediaclkDirect)

def appendClock (cap : Nat) (p : SdpParams) (out : List Char) : Option (List Char) :=
  match p.tsRefclk with
  | some clock => snprintfAppend cap out (clockLines p clock)
  | none => some out

-- `none` for the C result -1: the text does not fit.
def sdpBuild (cap : Nat) (p : SdpParams) : Option (List Char) := do
  let out ← snprintfAppend cap [] (sessionLines p ++ (endLine "t=0 0".toList ++
    (endLine (mediaLine p) ++ (endLine (rtpmapLine p) ++ endLine (ptimeLine p)))))
  let out ← appendClock cap p out
  snprintfAppend cap out (endLine "a=recvonly".toList)

def sapHash (s : List Char) : UInt16 :=
  let h := s.foldl (fun (h : UInt16) c => h * 31 + UInt16.ofNat c.toNat) 0x1234
  if h = 0 then 1 else h

structure SapPacket where
  header : List UInt8
  sdp : List Char
deriving DecidableEq

def sapMime : List UInt8 := "application/sdp".toList.map (fun c => UInt8.ofNat c.toNat) ++ [0]

def sapBuild (inetPton : List Char → Option (Fin 4 → UInt8)) (cap : Nat) (originIp : List Char)
    (msgIdHash : UInt16) (sdp : List Char) : Option SapPacket := do
  let addr ← inetPton originIp
  if cap < 8 + sapMime.length + sdp.length then none
  else
    some { header := ([0x20, 0x00, (msgIdHash >>> 8).toUInt8, (msgIdHash &&& 0xff).toUInt8] : List UInt8) ++
             List.ofFn addr ++ sapMime
           sdp := sdp }

/-- What a receiver takes from a description. -/
structure SdpMedia where
  payloadType : Nat
  rate : Nat
  channels : Nat
  ptime : Nat
deriving DecidableEq, Repr

structure SdpFields where
  media : Option Nat
  rtpmap : Option (Nat × Nat × Nat)
  ptime : Option Nat

def readMedia (line : List Char) : Option Nat := do
  let rest ← "m=audio ".toList.isPrefixOf? line
  let (_, rest) ← readNat rest
  let rest ← " RTP/AVP ".toList.isPrefixOf? rest
  let (payloadType, rest) ← readNat rest
  if rest = [] then some payloadType else none

def readRtpmap (line : List Char) : Option (Nat × Nat × Nat) := do
  let rest ← "a=rtpmap:".toList.isPrefixOf? line
  let (payloadType, rest) ← readNat rest
  let rest ← " L24/".toList.isPrefixOf? rest
  let (rate, rest) ← readNat rest
  let rest ← "/".toList.isPrefixOf? rest
  let (channels, rest) ← readNat rest
  if rest = [] then some (payloadType, rate, channels) else none

def readPtime (line : List Char) : Option Nat := do
  let rest ← "a=ptime:".toList.isPrefixOf? line
  let (ptime, rest) ← readNat rest
  if rest = [] then some ptime else none

def readLine (f : SdpFields) (line : List Char) : SdpFields :=
  { media := (readMedia line).or f.media
    rtpmap := (readRtpmap line).or f.rtpmap
    ptime := (readPtime line).or f.ptime }

def parseSdp (text : List Char) : Option SdpMedia := do
  let f := scan readLine ⟨none, none, none⟩ text
  let payloadType ← f.media
  let (mapped, rate, channels) ← f.rtpmap
  let ptime ← f.ptime
  if mapped = payloadType then some ⟨payloadType, rate, channels, ptime⟩ else none

theorem isPrefixOf?_append (text rest : List Char) : text.isPrefixOf? (text ++ rest) = some rest := by
  induction text with
  | nil => rfl
  | cons c text ih =>
    have step : (c :: text).isPrefixOf? (c :: (text ++ rest)) =
        if c == c then text.isPrefixOf? (text ++ rest) else none := rfl
    rw [List.cons_append, step, if_pos (beq_self_eq_true c), ih]

theorem readMedia_mediaLine (port payloadType : Nat) :
    readMedia ("m=audio ".toList ++ (decimal port ++ (" RTP/AVP ".toList ++ decimal payloadType))) =
      some payloadType := by
  have portNumber := readNat_decimal port (" RTP/AVP ".toList ++ decimal payloadType) (by simp)
  simp only [readMedia, isPrefixOf?_append, portNumber, readNat_last, Option.bind_eq_bind, Option.bind_some,
    if_true]

theorem readRtpmap_rtpmapLine (payloadType rate channels : Nat) :
    readRtpmap ("a=rtpmap:".toList ++ (decimal payloadType ++ (" L24/".toList ++
      (decimal rate ++ ("/".toList ++ decimal channels))))) = some (payloadType, rate, channels) := by
  have mapped := readNat_decimal payloadType
    (" L24/".toList ++ (decimal rate ++ ("/".toList ++ decimal channels))) (by simp)
  have rateNumber := readNat_decimal rate ("/".toList ++ decimal channels) (by simp)
  simp only [readRtpmap, isPrefixOf?_append, mapped, rateNumber, readNat_last, Option.bind_eq_bind,
    Option.bind_some, if_true]

theorem readPtime_ptimeLine (ptime : Nat) : readPtime ("a=ptime:".toList ++ decimal ptime) = some ptime := by
  simp only [readPtime, isPrefixOf?_append, readNat_last, Option.bind_eq_bind, Option.bind_some, if_true]

section Kinds

variable (f : SdpFields) (text : List Char)

theorem readLine_media {payloadType : Nat} (read : readMedia ("m=audio ".toList ++ text) = some payloadType) :
    readLine f ("m=audio ".toList ++ text) = { f with media := some payloadType } := by
  rw [readLine, read]
  rfl

theorem readLine_rtpmap {map : Nat × Nat × Nat} (read : readRtpmap ("a=rtpmap:".toList ++ text) = some map) :
    readLine f ("a=rtpmap:".toList ++ text) = { f with rtpmap := some map } := by
  rw [readLine, read]
  rfl

theorem readLine_ptime {ptime : Nat} (read : readPtime ("a=ptime:".toList ++ text) = some ptime) :
    readLine f ("a=ptime:".toList ++ text) = { f with ptime := some ptime } := by
  rw [readLine, read]
  rfl

theorem readLine_clock : readLine f ("a=ts-refclk:ptp=IEEE1588-2008:".toList ++ text) = f := rfl

theorem readLine_mediaclk : readLine f ("a=mediaclk:direct=".toList ++ text) = f := rfl

theorem readLine_recvonly : readLine f "a=recvonly".toList = f := rfl

theorem readLine_empty : readLine f [] = f := rfl

end Kinds

/-- The numbers of a description that a receiver depends on. -/
structure SdpParams.Describes (p : SdpParams) (port : Nat) (media : SdpMedia) : Prop where
  port : p.mcastPort = port
  payloadType : p.payloadType = media.payloadType
  rate : p.rate = media.rate
  channels : p.channels = media.channels
  ptime : p.ptime = media.ptime
  clock : ∀ clock, p.tsRefclk = some clock → Unbroken clock

theorem literal_unbroken (text : List Char) (free : text.all (fun c => !isBreak c) = true) :
    Unbroken text := by
  intro c member
  have all := List.all_eq_true.mp free c member
  simpa using all

theorem mediaLine_graphic (p : SdpParams) : Graphic (mediaLine p) :=
  (literal_graphic "m=audio ".toList (by decide)).append ((decimal_graphic _).append
    ((literal_graphic " RTP/AVP ".toList (by decide)).append (decimal_graphic _)))

theorem rtpmapLine_graphic (p : SdpParams) : Graphic (rtpmapLine p) :=
  (literal_graphic "a=rtpmap:".toList (by decide)).append ((decimal_graphic _).append
    ((literal_graphic " L24/".toList (by decide)).append ((decimal_graphic _).append
      ((literal_graphic "/".toList (by decide)).append (decimal_graphic _)))))

theorem ptimeLine_graphic (p : SdpParams) : Graphic (ptimeLine p) :=
  (literal_graphic "a=ptime:".toList (by decide)).append (decimal_graphic _)

section Described

variable {p : SdpParams} {port : Nat} {media : SdpMedia}

theorem readLine_mediaLine (describes : p.Describes port media) (f : SdpFields) :
    readLine f (mediaLine p) = { f with media := some media.payloadType } := by
  have line : mediaLine p = "m=audio ".toList ++
      (decimal port ++ (" RTP/AVP ".toList ++ decimal media.payloadType)) := by
    unfold mediaLine
    rw [describes.port, describes.payloadType]
  exact (congrArg (readLine f) line).trans
    (readLine_media f _ (readMedia_mediaLine port media.payloadType))

theorem readLine_rtpmapLine (describes : p.Describes port media) (f : SdpFields) :
    readLine f (rtpmapLine p) =
      { f with rtpmap := some (media.payloadType, media.rate, media.channels) } := by
  have line : rtpmapLine p = "a=rtpmap:".toList ++ (decimal media.payloadType ++ (" L24/".toList ++
      (decimal media.rate ++ ("/".toList ++ decimal media.channels)))) := by
    unfold rtpmapLine
    rw [describes.payloadType, describes.rate, describes.channels]
  exact (congrArg (readLine f) line).trans
    (readLine_rtpmap f _ (readRtpmap_rtpmapLine media.payloadType media.rate media.channels))

theorem readLine_ptimeLine (describes : p.Describes port media) (f : SdpFields) :
    readLine f (ptimeLine p) = { f with ptime := some media.ptime } := by
  have line : ptimeLine p = "a=ptime:".toList ++ decimal media.ptime := by
    unfold ptimeLine
    rw [describes.ptime]
  exact (congrArg (readLine f) line).trans (readLine_ptime f _ (readPtime_ptimeLine media.ptime))

theorem scan_described (describes : p.Describes port media) (f : SdpFields) (rest : List Char) :
    scan readLine f (endLine (mediaLine p) ++ (endLine (rtpmapLine p) ++ (endLine (ptimeLine p) ++ rest))) =
      scan readLine ⟨some media.payloadType, some (media.payloadType, media.rate, media.channels),
        some media.ptime⟩ rest := by
  rw [scan_endLine _ readLine_empty, scan_endLine _ readLine_empty, scan_endLine _ readLine_empty,
    scan_line _ _ (mediaLine_graphic p).unbroken, scan_line _ _ (rtpmapLine_graphic p).unbroken,
    scan_line _ _ (ptimeLine_graphic p).unbroken, readLine_mediaLine describes, readLine_rtpmapLine describes,
    readLine_ptimeLine describes]

end Described

def trailer (p : SdpParams) : List Char :=
  match p.tsRefclk with
  | some clock => clockLines p clock
  | none => []

theorem scan_recvonly (f : SdpFields) : scan readLine f (endLine "a=recvonly".toList) = f := by
  have ended := scan_endLine readLine readLine_empty f "a=recvonly".toList []
  have line := scan_line readLine f (literal_unbroken "a=recvonly".toList (by decide))
  rw [List.append_nil, line, readLine_recvonly] at ended
  exact ended

-- What follows the packet time is read without effect.
theorem scan_trailer {p : SdpParams} {port : Nat} {media : SdpMedia} (describes : p.Describes port media)
    (f : SdpFields) : scan readLine f (trailer p ++ endLine "a=recvonly".toList) = f := by
  cases clock : p.tsRefclk with
  | none =>
    rw [trailer, clock]
    exact scan_recvonly f
  | some text =>
    have refclk : Unbroken ("a=ts-refclk:ptp=IEEE1588-2008:".toList ++ text) :=
      (literal_unbroken _ (by decide)).append (describes.clock text clock)
    have mediaclk : Unbroken ("a=mediaclk:direct=".toList ++ decimal p.mediaclkDirect) :=
      (literal_unbroken _ (by decide)).append (decimal_unbroken _)
    rw [trailer, clock]
    simp only [clockLines, List.append_assoc]
    rw [scan_endLine _ readLine_empty, scan_endLine _ readLine_empty, scan_line _ _ refclk,
      scan_line _ _ mediaclk, readLine_clock, readLine_mediaclk, scan_recvonly]

theorem sdpBuild_text {cap : Nat} {p : SdpParams} {text : List Char} (built : sdpBuild cap p = some text) :
    text = sessionLines p ++ (endLine "t=0 0".toList ++ (endLine (mediaLine p) ++ (endLine (rtpmapLine p) ++
      (endLine (ptimeLine p) ++ (trailer p ++ endLine "a=recvonly".toList))))) := by
  simp only [sdpBuild, Option.bind_eq_bind, Option.bind_eq_some_iff] at built
  obtain ⟨body, bodyFits, withClock, clockFits, fits⟩ := built
  have clocked : withClock = body ++ trailer p := by
    cases clock : p.tsRefclk with
    | none =>
      rw [appendClock, clock] at clockFits
      rw [trailer, clock, List.append_nil]
      exact (Option.some.inj clockFits).symm
    | some refclk =>
      rw [appendClock, clock] at clockFits
      rw [trailer, clock]
      exact (snprintfAppend_eq_some.mp clockFits).2.2
  rw [(snprintfAppend_eq_some.mp fits).2.2, clocked, (snprintfAppend_eq_some.mp bodyFits).2.2]
  simp only [List.nil_append, List.append_assoc]

/-- A description that fits its buffer says what its parameters say, whatever the names in it are. -/
theorem parseSdp_sdpBuild {cap : Nat} {p : SdpParams} (port : Nat) {media : SdpMedia}
    (describes : p.Describes port media) {text : List Char} (built : sdpBuild cap p = some text) :
    parseSdp text = some media := by
  have fields : scan readLine ⟨none, none, none⟩ text =
      ⟨some media.payloadType, some (media.payloadType, media.rate, media.channels), some media.ptime⟩ := by
    rw [sdpBuild_text built]
    simp only [sessionLines, List.append_assoc]
    rw [scan_endLine _ readLine_empty, scan_endLine _ readLine_empty, scan_endLine _ readLine_empty,
      scan_endLine _ readLine_empty, scan_endLine _ readLine_empty, scan_described describes,
      scan_trailer describes]
  simp [parseSdp, fields]

end ReacAes67
