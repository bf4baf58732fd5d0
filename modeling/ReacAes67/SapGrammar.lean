import ReacAes67.SdpGrammar
import ReacAes67.Shared.Endian
import Mathlib.Data.Fin.Tuple.Reflection

set_option autoImplicit false

/-!
# Announcements read back

`sap_build` puts a header and a MIME type before a description. A receiver finds
the origin, the hash and the same description in it.
-/

namespace ReacAes67

open BoundedPrint Endian TextLines

def charByte (c : Char) : UInt8 := UInt8.ofNat c.toNat

theorem ofNat_charByte {c : Char} (byte : c.toNat < 256) : Char.ofNat (charByte c).toNat = c := by
  have value : (charByte c).toNat = c.toNat := by simp [charByte, Nat.mod_eq_of_lt byte]
  rw [value, Char.ofNat_toNat]

-- One number of an address: no sign, no leading zero, at most 255.
def readOctet (text : List Char) : Option (UInt8 × List Char) := do
  let (value, rest) ← readNat text
  let digits := text.takeWhile Char.isDigit
  if value ≤ 255 ∧ (digits.head? = some '0' → digits.length = 1) then some (UInt8.ofNat value, rest) else none

-- `inet_pton` for AF_INET.
def inetPton (text : List Char) : Option (Fin 4 → UInt8) := do
  let (a, rest) ← readOctet text
  let rest ← ".".toList.isPrefixOf? rest
  let (b, rest) ← readOctet rest
  let rest ← ".".toList.isPrefixOf? rest
  let (c, rest) ← readOctet rest
  let rest ← ".".toList.isPrefixOf? rest
  let (d, rest) ← readOctet rest
  if rest = [] then some ![a, b, c, d] else none

def dottedQuad (addr : Fin 4 → UInt8) : List Char :=
  decimal (addr 0).toNat ++ (".".toList ++ (decimal (addr 1).toNat ++ (".".toList ++
    (decimal (addr 2).toNat ++ (".".toList ++ decimal (addr 3).toNat)))))

theorem readOctet_decimal (octet : UInt8) (rest : List Char) (stop : ∀ c ∈ rest.head?, c.isDigit = false) :
    readOctet (decimal octet.toNat ++ rest) = some (octet, rest) := by
  have bound := octet.toNat_lt
  have plain : ∀ n < 256, (Nat.toDigits 10 n).head? = some '0' → (Nat.toDigits 10 n).length = 1 := by
    decide +kernel
  have digits := (span_decimal octet.toNat rest stop).1
  have accepted : octet.toNat ≤ 255 ∧ ((Nat.toDigits 10 octet.toNat).head? = some '0' →
      (Nat.toDigits 10 octet.toNat).length = 1) := ⟨by omega, plain octet.toNat bound⟩
  simp only [readOctet, readNat_decimal octet.toNat rest stop, digits, Option.bind_eq_bind, Option.bind_some]
  rw [if_pos accepted, UInt8.ofNat_toNat]

theorem inetPton_dottedQuad (addr : Fin 4 → UInt8) : inetPton (dottedQuad addr) = some addr := by
  have last := readOctet_decimal (addr 3) [] (by simp)
  rw [List.append_nil] at last
  have dot (rest : List Char) : ∀ c ∈ (".".toList ++ rest).head?, c.isDigit = false := by simp
  have address : ![addr 0, addr 1, addr 2, addr 3] = addr := FinVec.etaExpand_eq addr
  unfold inetPton dottedQuad
  simp only [readOctet_decimal _ _ (dot _), isPrefixOf?_append, last, Option.bind_eq_bind, Option.bind_some,
    if_true, address]

/-- What a receiver takes from an announcement. -/
structure SapMessage where
  origin : Fin 4 → UInt8
  msgIdHash : UInt16
  sdp : List Char

def SapPacket.bytes (pkt : SapPacket) : List UInt8 := pkt.header ++ pkt.sdp.map charByte

-- A SAPv1 announcement from an IPv4 origin, with the MIME type up to its zero.
def parseSap : List UInt8 → Option SapMessage
  | flags :: authLen :: hi :: lo :: a :: b :: c :: d :: rest =>
    let payload := rest.drop (4 * authLen.toNat)
    let mime := payload.takeWhile (· != 0)
    if flags >>> 5 = 1 ∧ flags &&& 0x1f = 0 ∧ mime ++ [0] = sapMime then
      some { origin := ![a, b, c, d], msgIdHash := le16 lo hi
             sdp := (payload.drop (mime.length + 1)).map fun byte => Char.ofNat byte.toNat }
    else none
  | _ => none

theorem map_charByte {text : List Char} (bytes : CString text) :
    (text.map charByte).map (fun byte => Char.ofNat byte.toNat) = text := by
  rw [List.map_map]
  have same : ∀ c ∈ text, ((fun byte : UInt8 => Char.ofNat byte.toNat) ∘ charByte) c = id c :=
    fun c member => ofNat_charByte (bytes c member).2
  rw [List.map_congr_left same, List.map_id]

def sapHeader (addr : Fin 4 → UInt8) (hash : UInt16) : List UInt8 :=
  ([0x20, 0x00, (hash >>> 8).toUInt8, (hash &&& 0xff).toUInt8] : List UInt8) ++ List.ofFn addr ++ sapMime

theorem sapMime_length : sapMime.length = 16 := by decide

theorem sapBuild_dottedQuad (cap : Nat) (addr : Fin 4 → UInt8) (hash : UInt16) (sdp : List Char) :
    sapBuild inetPton cap (dottedQuad addr) hash sdp =
      if cap < 24 + sdp.length then none else some ⟨sapHeader addr hash, sdp⟩ := by
  rw [sapBuild, inetPton_dottedQuad, sapMime_length]
  rfl

theorem parseSap_header (addr : Fin 4 → UInt8) (hash : UInt16) (body : List UInt8) :
    parseSap (sapHeader addr hash ++ body) =
      some ⟨addr, hash, body.map fun byte => Char.ofNat byte.toNat⟩ := by
  have address : ![addr 0, addr 1, addr 2, addr 3] = addr := FinVec.etaExpand_eq addr
  have filled : ∀ byte ∈ "application/sdp".toList.map charByte, (byte != 0) = true := by
    decide +kernel
  have mime : (sapMime ++ body).takeWhile (· != 0) = "application/sdp".toList.map charByte := by
    have split : sapMime ++ body = "application/sdp".toList.map charByte ++ (0 :: body) := by
      rw [List.append_cons]
      rfl
    rw [split, List.takeWhile_append_of_pos filled]
    simp
  have dropped : (sapMime ++ body).drop (("application/sdp".toList.map charByte).length + 1) = body :=
    List.drop_left' (by decide)
  have laidOut : sapHeader addr hash ++ body =
      (0x20 : UInt8) :: 0x00 :: (hash >>> 8).toUInt8 :: (hash &&& 0xff).toUInt8 ::
        addr 0 :: addr 1 :: addr 2 :: addr 3 :: (sapMime ++ body) := by
    rw [sapHeader, List.append_assoc]
    rfl
  have unsigned : (sapMime ++ body).drop (4 * (0x00 : UInt8).toNat) = sapMime ++ body := rfl
  have announce : (0x20 : UInt8) >>> 5 = 1 ∧ (0x20 : UInt8) &&& 0x1f = 0 ∧
      "application/sdp".toList.map charByte ++ [0] = sapMime := by decide
  rw [laidOut]
  simp only [parseSap, unsigned, mime, dropped]
  rw [if_pos announce, toUInt8_and_mask16, le16_bytes, address]

/-- An announcement that fits its buffer says what went into it. -/
theorem parseSap_sapBuild {cap : Nat} {addr : Fin 4 → UInt8} {hash : UInt16} {sdp : List Char}
    (bytes : CString sdp) {pkt : SapPacket}
    (built : sapBuild inetPton cap (dottedQuad addr) hash sdp = some pkt) :
    pkt.bytes.length = 24 + sdp.length ∧ parseSap pkt.bytes = some ⟨addr, hash, sdp⟩ := by
  rw [sapBuild_dottedQuad] at built
  split at built
  next => cases built
  next =>
    obtain rfl := Option.some.inj built
    constructor
    next =>
      have header : (sapHeader addr hash).length = 24 := by simp [sapHeader, sapMime_length]
      rw [SapPacket.bytes, List.length_append, List.length_map, header]
    next => rw [SapPacket.bytes, parseSap_header, map_charByte bytes]

/-- A description is printed whole or not at all, and everything in it can be read again, also from
its announcement. -/
theorem sdpBuild_sapBuild_lossless :
    (∀ (p : SdpParams) (cap : Nat) (out : Memory), p.Printable →
      ((sdpBuildInto cap p out).1 = -1 ↔ p.Overlong ∨ cap ≤ (sdpText p).length) ∧
      (∀ i, cap ≤ i → (sdpBuildInto cap p out).2 i = out i) ∧
      ((sdpBuildInto cap p out).1 ≠ -1 →
        (sdpBuildInto cap p out).1 = (sdpText p).length ∧ CString (sdpText p) ∧
        Terminated (sdpBuildInto cap p out).2 (sdpText p) ∧
        parseDescription (sdpText p) = some p.description)) ∧
    (∀ (sdp : List Char) (cap : Nat) (addr : Fin 4 → UInt8) (hash : UInt16), CString sdp →
      (sapBuild inetPton cap (dottedQuad addr) hash sdp = none ↔ cap < 24 + sdp.length) ∧
      ∀ pkt, sapBuild inetPton cap (dottedQuad addr) hash sdp = some pkt →
        pkt.bytes.length = 24 + sdp.length ∧ parseSap pkt.bytes = some ⟨addr, hash, sdp⟩) ∧
    ∀ (p : SdpParams) (out : Memory) (addr : Fin 4 → UInt8) (hash : UInt16),
      (sdpBuildInto 768 p out).1 ≠ -1 → sapBuild inetPton 1024 (dottedQuad addr) hash (sdpText p) ≠ none := by
  refine ⟨fun p cap out printable => ?_, fun sdp cap addr hash bytes => ?_, fun p out addr hash built => ?_⟩
  next =>
    refine ⟨sdpBuildInto_refused.trans sdpBuild_eq_none, fun i => sdpBuildInto_outside p out, fun built => ?_⟩
    obtain ⟨length, terminated⟩ := sdpBuildInto_text built
    exact ⟨length, sdpText_cString printable, terminated, parseDescription_sdpText printable⟩
  next =>
    constructor
    next => simp [sapBuild_dottedQuad]
    next => exact fun pkt built => parseSap_sapBuild bytes built
  next =>
    have fits : ¬768 ≤ (sdpText p).length := fun full =>
      built (sdpBuildInto_refused.mpr (sdpBuild_eq_none.mpr (Or.inr full)))
    rw [sapBuild_dottedQuad, if_neg (by omega)]
    simp

def named (name : List Char) : SdpParams :=
  { sessionName := name, originIp := "10.0.0.1".toList, mcastIp := "239.69.10.1".toList, mcastPort := 5004
    payloadType := 96, rate := 48000, channels := 8, ttl := 1, ptimeMs := 1
    tsRefclk := some "00-11-22-FF-FE-33-44-55:0".toList, mediaclkDirect := 0 }

theorem named_printable {name : List Char} (printable : CString name ∧ Unbroken name) :
    (named name).Printable where
  name := printable
  origin := ⟨literal_cString "10.0.0.1".toList (by decide), literal_unbroken "10.0.0.1".toList (by decide)⟩
  group :=
    ⟨literal_cString "239.69.10.1".toList (by decide), literal_unbroken "239.69.10.1".toList (by decide)⟩
  slash := (by decide : '/' ∉ "239.69.10.1".toList)
  clock := by
    rintro clock ⟨⟩
    exact ⟨literal_cString _ (by decide), literal_unbroken _ (by decide)⟩

theorem sdpBuild_sapBuild_lossless_named :
    parseDescription (sdpText (named "REAC-1".toList)) = some (named "REAC-1".toList).description ∧
      ∀ pkt,
        sapBuild inetPton 1024 (dottedQuad ![10, 0, 0, 1]) 0xbeef (sdpText (named "REAC-1".toList)) =
          some pkt →
        parseSap pkt.bytes = some ⟨![10, 0, 0, 1], 0xbeef, sdpText (named "REAC-1".toList)⟩ := by
  have printable : (named "REAC-1".toList).Printable :=
    named_printable ⟨literal_cString _ (by decide), literal_unbroken _ (by decide)⟩
  obtain ⟨encodes, wraps, -⟩ := sdpBuild_sapBuild_lossless
  have built : (sdpBuildInto 768 (named "REAC-1".toList) fun _ => '\x00').1 ≠ -1 := by decide +kernel
  obtain ⟨-, bytes, -, described⟩ := (encodes (named "REAC-1".toList) 768 _ printable).2.2 built
  exact ⟨described, fun pkt wrapped => ((wraps _ 1024 _ _ bytes).2 pkt wrapped).2⟩

section Repeated

variable (n : Nat)

theorem repeated_printable : (named (List.replicate n 'a')).Printable := by
  refine named_printable ⟨fun c member => ?_, fun c member => ?_⟩
  next =>
    rw [List.eq_of_mem_replicate member]
    decide
  next =>
    rw [List.eq_of_mem_replicate member]
    rfl

theorem repeated_overlong (long : intMax < n) : (named (List.replicate n 'a')).Overlong := by
  have head := name_le_head (named (List.replicate n 'a'))
  have name : (named (List.replicate n 'a')).sessionName.length = n := List.length_replicate
  rw [name] at head
  exact Or.inl (Nat.lt_of_lt_of_le long head)

theorem repeated_length : (sdpText (named (List.replicate n 'a'))).length < n + 300 := by
  have short : (sdpText (named [])).length < 300 := by decide +kernel
  have length := sdpText_length (named (List.replicate n 'a'))
  have name : (named (List.replicate n 'a')).sessionName.length = n := List.length_replicate
  have unnamed : { named (List.replicate n 'a') with sessionName := [] } = named [] := rfl
  rw [name, unnamed] at length
  omega

end Repeated

/-- A print that `snprintf` cannot measure is refused however large the buffer is. -/
theorem sdpBuildInto_overlong :
    (named (List.replicate 2147483648 'a')).Printable ∧
      ¬((sdpBuildInto 4294967296 (named (List.replicate 2147483648 'a')) fun _ => '\x00').1 = -1 ↔
        4294967296 ≤ (sdpText (named (List.replicate 2147483648 'a'))).length) := by
  have long := repeated_overlong 2147483648 (by decide)
  have length := repeated_length 2147483648
  refine ⟨repeated_printable 2147483648, fun fits => ?_⟩
  have full := fits.mp (sdpBuildInto_refused.mpr (sdpBuild_eq_none.mpr (Or.inl long)))
  omega

end ReacAes67
