import ReacAes67.Announcement
import ReacAes67.FlowTable
import ReacAes67.SapGrammar
import ReacAes67.SapShifts

set_option autoImplicit false

/-!
# The announcements of one session

`run_dante` announces every flow by a description of its own. The descriptions
of two flows differ in the number after the session's name, in the last octet of
the group and, for the last flow, in the channel count. A receiver tells the
announcements apart by their origin and message id hash.
-/

namespace ReacAes67

open BoundedPrint PolynomialHash TextLines

/-- The description of a flow of the Dante profile. -/
def danteDescription (host : Host) (o : Options) (i : Nat) : Option SdpParams := do
  let flows ← danteFlows host o
  let fl ← flows[i]?
  let fip ← ipv4AddOctet o.aes67Base i
  some (danteFlowSdp host o i fl fip)

/-- What a receiver tells announcements apart by. -/
def receivedId (pkt : SapPacket) : Option ((Fin 4 → UInt8) × UInt16) :=
  (parseSap pkt.bytes).map fun message => (message.origin, message.msgIdHash)

/-- The three places where the descriptions of two flows differ are as long in both. -/
structure SdpParams.SameWidths (p q : SdpParams) : Prop where
  name : p.sessionName.length = q.sessionName.length
  group : p.mcastIp.length = q.mcastIp.length
  channels : (decimal p.channels).length = (decimal q.channels).length

theorem danteAnnouncement_packet {host : Host} {o : Options} {i : Nat} {pkt : SapPacket}
    (made : danteAnnouncement host o i = some pkt) :
    ∃ p addr, danteDescription host o i = some p ∧ host.inetPton o.origin = some addr ∧
      pkt = ⟨sapHeader addr (sapHash (sdpText p)), sdpText p⟩ := by
  simp only [danteAnnouncement, Option.bind_eq_bind, Option.bind_eq_some_iff] at made
  obtain ⟨flows, opened, fl, member, made⟩ := made
  split at made
  next =>
    simp only [Option.bind_eq_some_iff] at made
    obtain ⟨fip, address, sdp, built, wrapped⟩ := made
    obtain ⟨-, -, rfl⟩ := sdpBuild_eq_some.mp built
    simp only [sapBuild, Option.bind_eq_bind, Option.bind_eq_some_iff] at wrapped
    obtain ⟨addr, origin, wrapped⟩ := wrapped
    split at wrapped
    next => cases wrapped
    next =>
      refine ⟨danteFlowSdp host o i fl fip, addr, ?_, origin, (Option.some.inj wrapped).symm⟩
      simp only [danteDescription, opened, member, address, Option.bind_eq_bind, Option.bind_some]
  next => cases made

theorem receivedId_header (addr : Fin 4 → UInt8) (hash : UInt16) (sdp : List Char) :
    receivedId ⟨sapHeader addr hash, sdp⟩ = some (addr, hash) := by
  rw [receivedId, SapPacket.bytes, parseSap_header]
  rfl

section Places

def beforeNumber (origin label : List Char) : List Char :=
  endLine "v=0".toList ++ endLine ("o=- 1 1 IN IP4 ".toList ++ origin) ++ ("s=".toList ++ label)

def betweenGroup (p : SdpParams) : List Char :=
  "/".toList ++ decimal p.ttl ++ "\r\n".toList ++ endLine "t=0 0".toList ++ endLine (mediaLine p) ++
    ("a=rtpmap:".toList ++ decimal p.payloadType ++ " L24/".toList ++ decimal p.rate ++ "/".toList)

def afterChannels (p : SdpParams) : List Char :=
  "\r\n".toList ++ endLine (ptimeLine p) ++ (trailer p ++ endLine "a=recvonly".toList)

theorem sdpText_places (p : SdpParams) {label number stem octet : List Char}
    (name : p.sessionName = label ++ number) (group : p.mcastIp = stem ++ octet) :
    sdpText p = beforeNumber p.originIp label ++
      (number ++ ("\r\nc=IN IP4 ".toList ++ stem) ++ octet ++ betweenGroup p ++ decimal p.channels) ++
        afterChannels p := by
  have ended : ("\r\nc=IN IP4 ".toList : List Char) = ['\r', '\n'] ++ "c=IN IP4 ".toList := by decide
  have broken : ("\r\n".toList : List Char) = ['\r', '\n'] := by decide
  unfold sdpText descriptionHead sessionLines beforeNumber betweenGroup afterChannels rtpmapLine endLine
  rw [name, group, ended, broken]
  simp only [List.append_assoc]

theorem decimal_length_le {n k : Nat} (positive : 0 < k) (small : n < 10 ^ k) : (decimal n).length ≤ k :=
  (Nat.length_toDigits_le_iff (by decide) positive).mpr small

theorem decimal_int_length {i : Int} (inRange : CInt.InRange i) : (decimal i).length ≤ 11 := by
  obtain ⟨low, high⟩ := inRange
  cases i with
  | ofNat n =>
    have bound : (n : Int) ≤ 2147483647 := high
    have number := decimal_length_le (n := n) (k := 10) (by decide) (by omega)
    exact Nat.le_succ_of_le number
  | negSucc n =>
    have number := decimal_length_le (n := n + 1) (k := 10) (by decide) (by omega)
    exact Nat.succ_le_succ number

theorem betweenGroup_length (p : SdpParams) :
    (betweenGroup p).length = 44 + (decimal p.ttl).length + (decimal p.mcastPort).length +
      2 * (decimal p.payloadType).length + (decimal p.rate).length := by
  have audio : "m=audio ".toList.length = 8 := by decide
  have avp : " RTP/AVP ".toList.length = 9 := by decide
  have rtpmap : "a=rtpmap:".toList.length = 9 := by decide
  have l24 : " L24/".toList.length = 5 := by decide
  have slash : "/".toList.length = 1 := by decide
  have broken : "\r\n".toList.length = 2 := by decide
  have time : "t=0 0".toList.length = 5 := by decide
  have two : ['\r', '\n'].length = 2 := rfl
  unfold betweenGroup mediaLine endLine
  simp only [List.length_append, audio, avp, rtpmap, l24, slash, broken, time, two]
  omega

end Places

section Flows

def groupStem (a b c : UInt32) : List Char :=
  decimal a.toNat ++ ['.'] ++ decimal b.toNat ++ ['.'] ++ decimal c.toNat ++ ['.']

def flowGroup (a b c : UInt32) (last : Nat) : List Char := groupStem a b c ++ decimal last

theorem groupStem_length {a b c : UInt32} (fits : a ≤ 255 ∧ b ≤ 255 ∧ c ≤ 255) :
    6 ≤ (groupStem a b c).length ∧ (groupStem a b c).length ≤ 12 := by
  have octet (v : UInt32) (small : v ≤ 255) : (decimal v.toNat).length ≤ 3 := by
    have bound : v.toNat ≤ 255 := UInt32.le_iff_toNat_le.mp small
    exact decimal_length_le (by decide) (by omega)
  have first := octet a fits.1
  have second := octet b fits.2.1
  have third := octet c fits.2.2
  have dot : ['.'].length = 1 := rfl
  have digits (v : UInt32) := decimal_length_pos v.toNat
  have firstDigits := digits a
  have secondDigits := digits b
  have thirdDigits := digits c
  simp only [groupStem, List.length_append, dot]
  omega

theorem ipv4AddOctet_stem {base fip : List Char} {add : Nat} (small : add < 40)
    (made : ipv4AddOctet base add = some fip) :
    ∃ a b c d, scanIpv4 base = some (a, b, c, d) ∧ (a ≤ 255 ∧ b ≤ 255 ∧ c ≤ 255) ∧ d.toNat + add < 256 ∧
      fip = flowGroup a b c (d.toNat + add) := by
  simp only [ipv4AddOctet, Option.bind_eq_bind, Option.bind_eq_some_iff] at made
  obtain ⟨⟨a, b, c, d⟩, scanned, made⟩ := made
  refine ⟨a, b, c, d, scanned, ?_⟩
  split at made
  next => cases made
  next octets =>
    split at made
    next => cases made
    next inside =>
      simp only [not_or, UInt32.not_lt] at octets
      have dSmall : d.toNat ≤ 255 := UInt32.le_iff_toNat_le.mp octets.2.2.2
      have sum : (d + UInt32.ofNat add).toNat = d.toNat + add := by
        simp
        omega
      have last : (d + UInt32.ofNat add).toNat ≤ 255 := UInt32.le_iff_toNat_le.mp (UInt32.not_lt.mp inside)
      refine ⟨⟨octets.1, octets.2.1, octets.2.2.1⟩, by omega, ?_⟩
      rw [← Option.some.inj made, sum]
      rfl

def flowLabel (o : Options) : List Char := announcedName o ++ ['-']

variable {host : Host} {o : Options} {w : Nat}

def flowSdp (host : Host) (o : Options) (w i : Nat) (fip : List Char) : SdpParams :=
  danteFlowSdp host o i (danteFlow 40 w o.payloadType o.ssrc i) fip

theorem flowSdp_name (host : Host) (o : Options) (w i : Nat) (fip : List Char) :
    (flowSdp host o w i fip).sessionName =
      (flowLabel o).take 63 ++ (decimal (i + 1 : Nat)).take (63 - (flowLabel o).length) :=
  List.take_append

theorem flowSdp_places (host : Host) (o : Options) (w i : Nat) (a b c : UInt32) (last : Nat) :
    sdpText (flowSdp host o w i (flowGroup a b c last)) =
      beforeNumber o.origin ((flowLabel o).take 63) ++
        ((decimal (i + 1 : Nat)).take (63 - (flowLabel o).length) ++
          ("\r\nc=IN IP4 ".toList ++ groupStem a b c) ++ decimal last ++
          betweenGroup (flowSdp host o w i (flowGroup a b c last)) ++
          decimal (flowSdp host o w i (flowGroup a b c last)).channels) ++
        afterChannels (flowSdp host o w i (flowGroup a b c last)) :=
  sdpText_places _ (flowSdp_name host o w i _) rfl

theorem octet_places {a b c : UInt32} (fits : a ≤ 255 ∧ b ≤ 255 ∧ c ≤ 255) {n : Nat} (small : n < 256) :
    ∃ k < 9, ("\r\nc=IN IP4 ".toList ++ groupStem a b c).length + (decimal n).length = k + 18 := by
  have text : "\r\nc=IN IP4 ".toList.length = 11 := by decide
  have stem := groupStem_length fits
  have digits := decimal_length_pos n
  have three := decimal_length_le (by decide : 0 < 3) (by omega : n < 10 ^ 3)
  rw [List.length_append, text]
  exact ⟨11 + (groupStem a b c).length + (decimal n).length - 18, by omega, by omega⟩

theorem channel_places (mode : o.mode host = broadcastMode 48000) (ttl : CInt.InRange o.ttl) (i : Nat)
    (fip : List Char) :
    ∃ m < 20, (betweenGroup (flowSdp host o w i fip)).length +
      (decimal (flowSdp host o w i fip).channels).length = m + 54 := by
  have rate : (decimal (flowSdp host o w i fip).rate).length = 5 := by
    have same : (flowSdp host o w i fip).rate = ((o.mode host).sampleRate : Int) := rfl
    rw [same, mode]
    decide
  have port : (decimal (flowSdp host o w i fip).mcastPort).length ≤ 5 :=
    decimal_length_le (by decide) (Nat.lt_trans o.rtpPort.toNat_lt (by decide))
  have payloadType : (decimal (flowSdp host o w i fip).payloadType).length ≤ 3 :=
    decimal_length_le (by decide) (Nat.lt_trans o.payloadType.toNat_lt (by decide))
  have channels : (decimal (flowSdp host o w i fip).channels).length ≤ 2 := by
    have few : min w (40 - i * w) < 100 := by omega
    exact decimal_short few
  have ttlDigits : (decimal (flowSdp host o w i fip).ttl).length ≤ 11 := decimal_int_length ttl
  have length := betweenGroup_length (flowSdp host o w i fip)
  have portDigits := decimal_length_pos (flowSdp host o w i fip).mcastPort
  have payloadTypeDigits := decimal_length_pos (flowSdp host o w i fip).payloadType
  have channelsDigits := decimal_length_pos (flowSdp host o w i fip).channels
  have ttlPositive := decimal_length_pos (flowSdp host o w i fip).ttl
  exact ⟨(betweenGroup (flowSdp host o w i fip)).length +
    (decimal (flowSdp host o w i fip).channels).length - 54, by omega, by omega⟩

-- Every flow but the last has the whole width.
theorem flowSdp_channels (positive : 0 < w) {i j : Nat} (less : i < j) (inside : j < flowCount 40 w)
    (left right : List Char)
    (widths : (decimal (flowSdp host o w i left).channels).length =
      (decimal (flowSdp host o w j right).channels).length) :
    ∃ E, digitsValue (decimal (flowSdp host o w i left).channels) =
        digitsValue (decimal (flowSdp host o w j right).channels) + E ∧
      (E = 0 ∨ E = lastStep w ∧ j = flowCount 40 w - 1 ∧ w < 40 ∧ lastWidth w < w ∧
        (10 ≤ w ↔ 10 ≤ lastWidth w)) := by
  have started := (lt_flowCount positive).mp inside
  have before : (i + 1) * w ≤ j * w := Nat.mul_le_mul_right w less
  rw [Nat.succ_mul] at before
  have whole : (flowSdp host o w i left).channels = (w : Nat) := by
    have channels : min w (40 - i * w) = w := by omega
    exact congrArg Nat.cast channels
  have own : (flowSdp host o w j right).channels = (min w (40 - j * w) : Nat) := rfl
  rw [whole, own] at widths ⊢
  by_cases full : w ≤ 40 - j * w
  next =>
    refine ⟨0, ?_, Or.inl rfl⟩
    rw [Nat.min_eq_left full, Nat.add_zero]
  next =>
    have isLast : j + 1 = flowCount 40 w := by
      have ended : ¬j + 1 < flowCount 40 w := by
        rw [lt_flowCount positive, Nat.succ_mul]
        omega
      omega
    have width : min w (40 - j * w) = lastWidth w := by
      rw [lastWidth, ← isLast, Nat.add_sub_cancel]
      omega
    rw [width] at widths ⊢
    have narrower : lastWidth w < w := by omega
    have grows := digitsValue_grows narrower.le (by omega) widths.symm
    have sameDigits := same_digits (by omega : w < 100) (by omega : lastWidth w < 100) widths
    refine ⟨lastStep w, ?_, Or.inr ⟨rfl, by omega, by omega, narrower, sameDigits⟩⟩
    rw [grows, lastStep]
    omega

theorem flows_incongruent (mode : o.mode host = broadcastMode 48000) (ttl : CInt.InRange o.ttl)
    (positive : 0 < w) {i j : Nat} (less : i < j) (inside : j < flowCount 40 w) {left right : List Char}
    (leftGroup : ipv4AddOctet o.aes67Base i = some left)
    (rightGroup : ipv4AddOctet o.aes67Base j = some right)
    (widths : (flowSdp host o w i left).SameWidths (flowSdp host o w j right)) :
    ¬textValue (sdpText (flowSdp host o w i left)) ≡ textValue (sdpText (flowSdp host o w j right))
      [MOD 65536] := by
  have few : flowCount 40 w ≤ 40 := flowCount_le positive
  obtain ⟨a, b, c, d, scanned, fits, iLast, rfl⟩ := ipv4AddOctet_stem (by omega) leftGroup
  obtain ⟨a', b', c', d', scanned', -, jLast, rfl⟩ := ipv4AddOctet_stem (by omega) rightGroup
  obtain ⟨rfl, rfl, rfl, rfl⟩ : a = a' ∧ b = b' ∧ c = c' ∧ d = d' := by
    simpa [scanned] using scanned'
  have channelWidths := widths.channels
  have numberWidths := widths.name
  rw [flowSdp_name, flowSdp_name, List.length_append, List.length_append,
    Nat.add_left_cancel_iff] at numberWidths
  have octetWidths : (decimal (d.toNat + i : Nat)).length = (decimal (d.toNat + j : Nat)).length := by
    have group : (flowGroup a b c (d.toNat + i)).length = (flowGroup a b c (d.toNat + j)).length :=
      widths.group
    rwa [flowGroup, flowGroup, List.length_append, List.length_append, Nat.add_left_cancel_iff] at group
  obtain ⟨E, channels, kinds⟩ := flowSdp_channels positive less inside (flowGroup a b c (d.toNat + i))
    (flowGroup a b c (d.toNat + j)) channelWidths
  obtain ⟨S, shift, number⟩ := number_shift (by omega : i + 1 < j + 1) (by omega) _ numberWidths
  obtain ⟨tens, tensStep, hundreds, hundredsStep, step⟩ :=
    octet_shift (by omega : d.toNat + i < d.toNat + j) (by omega)
  have octet := digitsValue_grows (by omega) jLast octetWidths
  rw [step, Nat.add_sub_add_left] at octet
  rw [Nat.add_sub_add_left] at tensStep
  obtain ⟨k, places, kPlaces⟩ := octet_places fits iLast
  obtain ⟨m, rest, mPlaces⟩ := channel_places (w := w) mode ttl i (flowGroup a b c (d.toNat + i))
  intro same
  rw [flowSdp_places, flowSdp_places] at same
  have shifts := places_congr _ _ _ _ numberWidths octetWidths channelWidths number octet channels same
  rw [mPlaces, kPlaces] at shifts
  rcases kinds with rfl | ⟨rfl, rfl, narrow, narrower, sameDigits⟩
  next =>
    have unit : Nat.Coprime 65536 (31 ^ (m + 54)) := Nat.Coprime.pow_right _ (by decide)
    have divides := unit.dvd_of_dvd_mul_left (Nat.dvd_of_mod_eq_zero shifts)
    exact steps_apart less (by omega) places tensStep hundredsStep shift (Nat.mod_eq_zero_of_dvd divides)
  next =>
    have apart := last_apart w narrow positive narrower sameDigits i less tens tensStep hundreds hundredsStep
      S shift
    have small : lastStep w < 65536 := by
      rw [lastStep]
      omega
    exact apart.ne places rest (shifts.trans (Nat.mod_eq_of_lt small))

end Flows

section Session

variable {host : Host} {o : Options}

theorem danteDescription_flow (mode : o.mode host = broadcastMode 48000) {i : Nat} {p : SdpParams}
    (described : danteDescription host o i = some p) :
    ∃ fip, 0 < o.chPerFlow.toNat ∧ i < flowCount 40 o.chPerFlow.toNat ∧
      ipv4AddOctet o.aes67Base i = some fip ∧ p = flowSdp host o o.chPerFlow.toNat i fip := by
  simp only [danteDescription, Option.bind_eq_bind, Option.bind_eq_some_iff] at described
  obtain ⟨flows, opened, fl, member, fip, address, described⟩ := described
  obtain ⟨n, accepted, built⟩ := danteFlows_built opened
  rw [mode] at built
  obtain ⟨positive, rfl⟩ := danteBuildFlows_table accepted built
  obtain ⟨inside, rfl⟩ := danteTable_getElem?.mp member
  exact ⟨fip, by omega, inside, address, (Option.some.inj described).symm⟩

theorem session_incongruent (mode : o.mode host = broadcastMode 48000) (ttl : CInt.InRange o.ttl) {i j : Nat}
    (different : i ≠ j) {p q : SdpParams} (left : danteDescription host o i = some p)
    (right : danteDescription host o j = some q) (widths : p.SameWidths q) :
    ¬textValue (sdpText p) ≡ textValue (sdpText q) [MOD 65536] := by
  obtain ⟨_, positive, leftInside, leftGroup, rfl⟩ := danteDescription_flow mode left
  obtain ⟨_, _, rightInside, rightGroup, rfl⟩ := danteDescription_flow mode right
  rcases Nat.lt_or_gt_of_ne different with less | greater
  next => exact flows_incongruent mode ttl positive less rightInside leftGroup rightGroup widths
  next =>
    have apart := flows_incongruent mode ttl positive greater leftInside rightGroup leftGroup
      ⟨widths.name.symm, widths.group.symm, widths.channels.symm⟩
    exact fun same => apart same.symm

/-- Two flows are announced under one origin and hash exactly when their descriptions have one value
modulo 2^16 or the replaced value meets the value 1; flows that print as wide never have one value. -/
theorem danteAnnouncements_share_iff (modes : host.LibreacModes) (ttl : CInt.InRange o.ttl) {i j : Nat}
    (different : i ≠ j) {left right : SapPacket} (first : announced host o (.flow i) = some left)
    (second : announced host o (.flow j) = some right) :
    ∃ p q, danteDescription host o i = some p ∧ danteDescription host o j = some q ∧
      left.sdp = sdpText p ∧ right.sdp = sdpText q ∧
      (receivedId left).isSome ∧ (receivedId right).isSome ∧
      (receivedId left = receivedId right ↔ textValue left.sdp ≡ textValue right.sdp [MOD 65536] ∨
        Merged left.sdp right.sdp ∨ Merged right.sdp left.sdp) ∧
      (p.SameWidths q → ¬textValue left.sdp ≡ textValue right.sdp [MOD 65536]) := by
  cases profile : o.profileDante with
  | false => simp [announced, profile] at first
  | true =>
    have mode : o.mode host = broadcastMode 48000 := by
      rw [Options.mode, if_pos profile]
      exact modes.standard 48000 (by decide)
    rw [announced_flow profile] at first second
    obtain ⟨p, addr, left, origin, rfl⟩ := danteAnnouncement_packet first
    obtain ⟨q, addr', right, origin', rfl⟩ := danteAnnouncement_packet second
    obtain rfl := Option.some.inj (origin.symm.trans origin')
    refine ⟨p, q, left, right, rfl, rfl, ?_, ?_, ?_, session_incongruent mode ttl different left right⟩
    next => rw [receivedId_header]; rfl
    next => rw [receivedId_header]; rfl
    next =>
      rw [receivedId_header, receivedId_header, ← sapHash_eq_iff]
      simp

end Session

def eightChannelFlows : Options :=
  { profileDante := true, name := some "REAC-HNR".toList, udpIp := "239.69.1.10".toList, udpPort := 5004
    aes67Base := "239.69.10.99".toList }

def singleChannelFlows : Options :=
  { profileDante := true, name := some "REAC-IWEC".toList, udpIp := "239.69.1.10".toList, udpPort := 5004
    aes67Base := "239.69.10.89".toList, chPerFlow := 1
    gmid := "001122FFFE334455".toList, ptpDomain := 127 }

-- Neighbours of different width and neighbours that print as wide.
theorem danteAnnouncements_share_iff_neighbours :
    (∃ left right, announced libreacHost eightChannelFlows (.flow 0) = some left ∧
      announced libreacHost eightChannelFlows (.flow 1) = some right ∧
      (receivedId left = receivedId right ↔ textValue left.sdp ≡ textValue right.sdp [MOD 65536] ∨
        Merged left.sdp right.sdp ∨ Merged right.sdp left.sdp)) ∧
    ∃ left right, announced libreacHost eightChannelFlows (.flow 1) = some left ∧
      announced libreacHost eightChannelFlows (.flow 2) = some right ∧
      ¬textValue left.sdp ≡ textValue right.sdp [MOD 65536] := by
  have made : ∀ i ∈ [0, 1, 2], (announced libreacHost eightChannelFlows (.flow i)).isSome = true := by
    decide +kernel
  obtain ⟨first, madeFirst⟩ := Option.isSome_iff_exists.mp (made 0 (by decide))
  obtain ⟨second, madeSecond⟩ := Option.isSome_iff_exists.mp (made 1 (by decide))
  obtain ⟨third, madeThird⟩ := Option.isSome_iff_exists.mp (made 2 (by decide))
  constructor
  next =>
    obtain ⟨_, _, _, _, _, _, _, _, shared, _⟩ :=
      danteAnnouncements_share_iff libreacHost_modes (by decide) (by decide) madeFirst madeSecond
    exact ⟨first, second, madeFirst, madeSecond, shared⟩
  next =>
    obtain ⟨p, q, described, described', _, _, _, _, _, apart⟩ :=
      danteAnnouncements_share_iff libreacHost_modes (by decide) (by decide) madeSecond madeThird
    let widths := fun p : SdpParams => (p.sessionName.length, p.mcastIp.length, (decimal p.channels).length)
    have same : (danteDescription libreacHost eightChannelFlows 1).map widths =
        (danteDescription libreacHost eightChannelFlows 2).map widths := by decide +kernel
    rw [described, described'] at same
    obtain ⟨name, rest⟩ := Prod.mk.inj (Option.some.inj same)
    obtain ⟨group, channels⟩ := Prod.mk.inj rest
    exact ⟨second, third, madeSecond, madeThird, apart ⟨name, group, channels⟩⟩

/-- Neighbours whose addresses differ in length, and flows as wide whose values are 0 and 1. -/
theorem danteAnnouncements_shared :
    (announced libreacHost eightChannelFlows (.flow 0)).map SapPacket.sdp ≠
        (announced libreacHost eightChannelFlows (.flow 1)).map SapPacket.sdp ∧
      ((announced libreacHost eightChannelFlows (.flow 0)).bind receivedId).isSome ∧
      (announced libreacHost eightChannelFlows (.flow 0)).bind receivedId =
        (announced libreacHost eightChannelFlows (.flow 1)).bind receivedId ∧
      (announced libreacHost singleChannelFlows (.flow 11)).map SapPacket.sdp ≠
        (announced libreacHost singleChannelFlows (.flow 39)).map SapPacket.sdp ∧
      ((announced libreacHost singleChannelFlows (.flow 11)).bind receivedId).isSome ∧
      (announced libreacHost singleChannelFlows (.flow 11)).bind receivedId =
        (announced libreacHost singleChannelFlows (.flow 39)).bind receivedId := by
  decide +kernel

end ReacAes67
