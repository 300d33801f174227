import Zilliqa.Lib.Codec

/-!
# `Network.P2PMessage` — the frame every peer-to-peer message travels in

`createMessage` writes a frame: the version, the network id and the start byte, the size of the
rest as a 32-bit word, then three optional or variable sections — the size of the trace
information (only when there is some, which the version says), the 32-byte hash (only for a
broadcast, which the start byte says), the message — and last the trace information.
`tryReadMessage` reads a frame from the front of a buffer; it recovers the length of each
section by subtracting the others from the 32-bit size.

- `readTraceSection_traced`, `readTraceSection_untraced`, `readHashSection_broadcast`,
  `readHashSection_of_ne`: what the reader takes from each section of a written frame.
- `tryReadMessage_createMessage`: a frame reads back as what was written, also with any bytes
  after it, and its size delimits it.
- `tryReadMessage_within_buffer`: on any buffer, bytes past its end change only whether there is
  enough data (`tryReadMessage_append`), and a successful read lays the hash, the message and the
  trace information out as consecutive ranges of the frame after its header (`FrameLayout`,
  `tryReadMessage_layout`), the lengths adding up without a truncated subtraction.
-/

namespace Zilliqa

namespace P2P

open Codec

/-- The constants a frame carries: `MSG_VERSION` and `NETWORK_ID`. -/
structure P2PConfig where
  msgVersion : ℕ
  networkId : UInt16

/-- `START_BYTE_NORMAL`. -/
def startByteNormal : UInt8 := 0x11

/-- `START_BYTE_BROADCAST`: the frame holds the message's hash. -/
def startByteBroadcast : UInt8 := 0x22

/-- `START_BYTE_GOSSIP`. -/
def startByteGossip : UInt8 := 0x33

/-- `HDR_LEN`: version, network id, start byte and the size word. -/
def hdrLen : ℕ := 8

/-- `HASH_LEN`. -/
def hashLen : ℕ := 32

/-- `MsgVersionWithTraces`: the version with its top bit set, for frames with trace information. -/
def msgVersionWithTraces (cfg : P2PConfig) : UInt8 := UInt8.ofNat cfg.msgVersion + 128

/-- `ReadU32BE`: four bytes, most significant first. -/
def readU32BE (bytes : List UInt8) : ℕ := getNumber bytes 4

/-- `(uint16_t(buf[1]) << 8) + buf[2]`: the network id. -/
def readU16BE (bytes : List UInt8) : ℕ := getNumber bytes 2

/-- The trace information `CreateMessage` writes: the ids of the active span when asked to inject
    them, none otherwise. -/
def traceInfoOf (injectTraceContext : Bool) (activeSpanIds : List UInt8) : List UInt8 :=
  if injectTraceContext then activeSpanIds else []

/-- `total_size`: what follows the header, with the size word of the trace information when there
    is some. -/
def totalSize (message msgHash traceInfo : List UInt8) : ℕ :=
  msgHash.length + message.length + traceInfo.length + if traceInfo.length ≠ 0 then 4 else 0

/-- `CreateMessage`: nothing for an empty message; otherwise the header, the size of the trace
    information when there is some, the hash, the message and the trace information. Each word is
    written byte by byte from its shifts, so only its low 32 bits are kept. -/
def createMessage (cfg : P2PConfig) (message msgHash : List UInt8) (startByte : UInt8)
    (injectTraceContext : Bool) (activeSpanIds : List UInt8) : List UInt8 :=
  if message = [] then [] else
  let traceInfo := traceInfoOf injectTraceContext activeSpanIds
  let traceSize := traceInfo.length
  let version := if traceSize ≠ 0 then msgVersionWithTraces cfg else UInt8.ofNat cfg.msgVersion
  [version] ++ setNumber 2 cfg.networkId.toNat ++ [startByte] ++
    setNumber 4 (totalSize message msgHash traceInfo) ++
    (if traceSize ≠ 0 then setNumber 4 traceSize else []) ++ msgHash ++ message ++ traceInfo

/-- `ReadState`. -/
inductive ReadState where
  | notEnoughData
  | success
  | wrongMsgVersion
  | wrongNetworkId
  | wrongMessageLength
  | wrongTraceLength
deriving DecidableEq, Repr

/-- `ReadMessageResult`, without the connection it is read from. -/
structure ReadMessageResult where
  startByte : UInt8
  message : List UInt8
  hash : List UInt8
  traceInfo : List UInt8
  totalMessageBytes : ℕ
deriving DecidableEq, Repr

/-- The trace section, for a frame whose version says it has one: the size word after the header
    and the trace information at the end of the frame, which leave `4 + traceLength` bytes less for
    the rest. Returns what follows the size word, the length left and the trace information. -/
def readTraceSection (cfg : P2PConfig) (version : UInt8) (lengthOfRemainingMessage : ℕ)
    (body : List UInt8) : Except ReadState (List UInt8 × ℕ × List UInt8) :=
  if version = msgVersionWithTraces cfg then do
    if lengthOfRemainingMessage < 5 then throw .wrongMessageLength
    let traceLength := readU32BE body
    if traceLength = 0 ∨ traceLength > lengthOfRemainingMessage - 4 then
      throw .wrongTraceLength
    let traceInfo := (body.drop (lengthOfRemainingMessage - traceLength)).take traceLength
    pure (body.drop 4, lengthOfRemainingMessage - (4 + traceLength), traceInfo)
  else pure (body, lengthOfRemainingMessage, [])

/-- The hash section, for a broadcast frame: the first `HASH_LEN` bytes left. Returns what follows
    it, the length left and the hash. -/
def readHashSection (startByte : UInt8) (body : List UInt8) (msgLength : ℕ) :
    Except ReadState (List UInt8 × ℕ × List UInt8) :=
  if startByte = startByteBroadcast then do
    if msgLength < hashLen then throw .wrongMessageLength
    pure (body.drop hashLen, msgLength - hashLen, body.take hashLen)
  else pure (body, msgLength, [])

/-- `TryReadMessage` on a buffer: the header checks, then the trace and hash sections, then the
    message, which is what is left. Only the state is kept on a failure: every caller drops the
    result then. -/
def tryReadMessage (cfg : P2PConfig) (buf : List UInt8) : Except ReadState ReadMessageResult := do
  if buf.length < hdrLen then throw .notEnoughData
  let version := buf.getD 0 0
  if version ≠ UInt8.ofNat cfg.msgVersion ∧ version ≠ msgVersionWithTraces cfg then
    throw .wrongMsgVersion
  if readU16BE (buf.drop 1) ≠ cfg.networkId.toNat then throw .wrongNetworkId
  let startByte := buf.getD 3 0
  let lengthOfRemainingMessage := readU32BE (buf.drop 4)
  let totalMessageBytes := hdrLen + lengthOfRemainingMessage
  if buf.length < totalMessageBytes then throw .notEnoughData
  let (body, msgLength, traceInfo) ←
    readTraceSection cfg version lengthOfRemainingMessage (buf.drop hdrLen)
  let (body, msgLength, hash) ← readHashSection startByte body msgLength
  let message := if msgLength > 0 then body.take msgLength else []
  pure ⟨startByte, message, hash, traceInfo, totalMessageBytes⟩

/-! ## Reading back a written frame -/

theorem readU32BE_setNumber_append (n : ℕ) (rest : List UInt8) (h : n < 2 ^ 32) :
    readU32BE (setNumber 4 n ++ rest) = n := by
  rw [readU32BE, getNumber_setNumber_append, Nat.mod_eq_of_lt h]

/-- The two versions differ: the one with traces has the top bit flipped. -/
theorem ofNat_ne_msgVersionWithTraces (cfg : P2PConfig) :
    UInt8.ofNat cfg.msgVersion ≠ msgVersionWithTraces cfg := by
  intro h
  have h' := congrArg UInt8.toNat h
  rw [msgVersionWithTraces, UInt8.toNat_add, UInt8.toNat_ofNat'] at h'
  simp only [UInt8.reduceToNat] at h'
  omega

/-- A frame with trace information: its size word and its last bytes are read as the trace. -/
theorem readTraceSection_traced (cfg : P2PConfig) (middle traceInfo extra : List UInt8)
    (hmiddle : middle ≠ []) (htrace : traceInfo ≠ [])
    (hsize : 4 + middle.length + traceInfo.length < 2 ^ 32) :
    readTraceSection cfg (msgVersionWithTraces cfg) (4 + middle.length + traceInfo.length)
        (setNumber 4 traceInfo.length ++ middle ++ traceInfo ++ extra) =
      .ok (middle ++ traceInfo ++ extra, middle.length, traceInfo) := by
  have hm := List.length_pos_of_ne_nil hmiddle
  have ht := List.length_pos_of_ne_nil htrace
  have hword : readU32BE (setNumber 4 traceInfo.length ++ (middle ++ (traceInfo ++ extra))) =
      traceInfo.length :=
    readU32BE_setNumber_append _ _ (by omega)
  -- the trace information is what is left after the size word and the middle
  have hfront : (setNumber 4 traceInfo.length ++ middle).length = 4 + middle.length := by simp
  have htail : (setNumber 4 traceInfo.length ++ (middle ++ (traceInfo ++ extra))).drop
      (4 + middle.length + traceInfo.length - traceInfo.length) = traceInfo ++ extra := by
    rw [Nat.add_sub_cancel, ← List.append_assoc, List.drop_left' hfront]
  have hlong : ¬ (4 + middle.length + traceInfo.length < 5) := by omega
  have hfits : ¬ (traceInfo.length = 0 ∨
      traceInfo.length > 4 + middle.length + traceInfo.length - 4) := by omega
  have hleft : 4 + middle.length + traceInfo.length - (4 + traceInfo.length) = middle.length := by
    omega
  rw [readTraceSection, if_pos rfl]
  simp only [List.append_assoc, hword, hlong, hfits, if_false, htail, hleft,
    List.take_left', List.drop_left' (length_setNumber 4 _)]
  rfl

/-- A frame without trace information keeps all of its body. -/
theorem readTraceSection_untraced (cfg : P2PConfig) (len : ℕ) (body : List UInt8) :
    readTraceSection cfg (UInt8.ofNat cfg.msgVersion) len body = .ok (body, len, []) := by
  rw [readTraceSection, if_neg (ofNat_ne_msgVersionWithTraces cfg)]
  rfl

/-- A broadcast frame: its first `HASH_LEN` bytes are the hash. -/
theorem readHashSection_broadcast (msgHash rest : List UInt8) (len : ℕ)
    (hhash : msgHash.length = hashLen) :
    readHashSection startByteBroadcast (msgHash ++ rest) (msgHash.length + len) =
      .ok (rest, len, msgHash) := by
  rw [readHashSection, if_pos rfl, if_neg (by omega)]
  simp only [pure, Except.pure, ← hhash, List.drop_left, List.take_left, Nat.add_sub_cancel_left]

theorem readHashSection_of_ne {startByte : UInt8} (h : startByte ≠ startByteBroadcast)
    (body : List UInt8) (len : ℕ) : readHashSection startByte body len = .ok (body, len, []) := by
  rw [readHashSection, if_neg h]
  rfl

/-- A written hash section, or none: the hash, then the message and what follows. -/
theorem readHashSection_written {startByte : UInt8} {msgHash : List UInt8}
    (hhash : if startByte = startByteBroadcast then msgHash.length = hashLen else msgHash = [])
    (rest : List UInt8) (len : ℕ) :
    readHashSection startByte (msgHash ++ rest) (msgHash.length + len) = .ok (rest, len, msgHash) := by
  by_cases hb : startByte = startByteBroadcast
  · rw [if_pos hb] at hhash
    rw [hb, readHashSection_broadcast msgHash rest len hhash]
  · rw [if_neg hb] at hhash
    subst hhash
    rw [readHashSection_of_ne hb, List.nil_append, List.length_nil, Nat.zero_add]

/-- **The header of a frame**: a version of either kind, this network's id and a size that fits
    the buffer pass the checks; the sections that follow are read from the rest. -/
theorem tryReadMessage_header (cfg : P2PConfig) (version startByte : UInt8) (len : ℕ)
    (body : List UInt8)
    (hversion : version = UInt8.ofNat cfg.msgVersion ∨ version = msgVersionWithTraces cfg)
    (hlen : len < 2 ^ 32) (hbody : len ≤ body.length) :
    tryReadMessage cfg
        (version :: (setNumber 2 cfg.networkId.toNat ++ startByte :: (setNumber 4 len ++ body))) =
      (do
        let (rest, msgLength, traceInfo) ← readTraceSection cfg version len body
        let (rest, msgLength, hash) ← readHashSection startByte rest msgLength
        pure ⟨startByte, if msgLength > 0 then rest.take msgLength else [], hash, traceInfo,
          hdrLen + len⟩) := by
  have hnet : readU16BE (setNumber 2 cfg.networkId.toNat ++ startByte :: (setNumber 4 len ++ body))
      = cfg.networkId.toNat := by
    rw [readU16BE, getNumber_setNumber_append, Nat.mod_eq_of_lt cfg.networkId.toNat_lt]
  have hword : readU32BE (setNumber 4 len ++ body) = len := readU32BE_setNumber_append _ _ hlen
  have hversion' : ¬ (version ≠ UInt8.ofNat cfg.msgVersion ∧ version ≠ msgVersionWithTraces cfg) :=
    fun h => hversion.elim h.1 h.2
  -- the network id is two bytes, so the start byte is the fourth and the size word follows it
  obtain ⟨a0, a1, hid⟩ := List.length_eq_two.1 (length_setNumber 2 cfg.networkId.toNat)
  rw [hid] at hnet ⊢
  have hshort : ¬ ((version :: ([a0, a1] ++ startByte :: (setNumber 4 len ++ body))).length <
      hdrLen) := by
    simp [hdrLen]
  have hfits : ¬ ((version :: ([a0, a1] ++ startByte :: (setNumber 4 len ++ body))).length <
      hdrLen + len) := by
    simp [hdrLen]
    omega
  have hwordAt : readU32BE (List.drop 3 ([a0, a1] ++ startByte :: (setNumber 4 len ++ body))) =
      len := hword
  have hbodyAt : List.drop hdrLen (version :: ([a0, a1] ++ startByte :: (setNumber 4 len ++ body))) =
      body :=
    List.drop_left' (length_setNumber 4 len)
  simp only [tryReadMessage, hshort, if_false]
  simp only [List.getD_cons_zero, hversion', if_false, List.drop_succ_cons, List.drop_zero, hnet,
    ne_eq, not_true_eq_false, hwordAt, hfits, hbodyAt]
  rfl

/-- A frame is its header and the size it announces. -/
theorem length_createMessage (cfg : P2PConfig) {message : List UInt8} (msgHash : List UInt8)
    (startByte : UInt8) (injectTraceContext : Bool) (activeSpanIds : List UInt8)
    (hmsg : message ≠ []) :
    (createMessage cfg message msgHash startByte injectTraceContext activeSpanIds).length =
      hdrLen + totalSize message msgHash (traceInfoOf injectTraceContext activeSpanIds) := by
  rw [createMessage, if_neg hmsg]
  by_cases ht : (traceInfoOf injectTraceContext activeSpanIds).length = 0
  · simp [ht, totalSize, hdrLen]
    omega
  · simp [ht, totalSize, hdrLen]
    omega

/-- The message is what the hash section leaves, up to the length left. -/
theorem message_take {message : List UInt8} (hmsg : message ≠ []) (rest : List UInt8) :
    (if message.length > 0 then (message ++ rest).take message.length else []) = message := by
  rw [if_pos (List.length_pos_of_ne_nil hmsg), List.take_left]

/-- **A written frame reads back as what was written**, followed by any bytes: its start byte,
    message, hash and trace information, and its own size, which delimits it. -/
theorem tryReadMessage_createMessage (cfg : P2PConfig) (message msgHash : List UInt8)
    (startByte : UInt8) (injectTraceContext : Bool) (activeSpanIds extra : List UInt8)
    (hmsg : message ≠ [])
    (hhash : if startByte = startByteBroadcast then msgHash.length = hashLen else msgHash = [])
    (hsize : totalSize message msgHash (traceInfoOf injectTraceContext activeSpanIds) < 2 ^ 32) :
    tryReadMessage cfg
        (createMessage cfg message msgHash startByte injectTraceContext activeSpanIds ++ extra) =
      .ok ⟨startByte, message, msgHash, traceInfoOf injectTraceContext activeSpanIds,
        (createMessage cfg message msgHash startByte injectTraceContext activeSpanIds).length⟩ := by
  rw [length_createMessage cfg msgHash startByte injectTraceContext activeSpanIds hmsg, createMessage,
    if_neg hmsg]
  generalize traceInfoOf injectTraceContext activeSpanIds = traceInfo at hsize ⊢
  have hm := List.length_pos_of_ne_nil hmsg
  by_cases ht : traceInfo.length = 0
  · -- no trace information: the hash and the message follow the header
    have htotal : totalSize message msgHash traceInfo = msgHash.length + message.length := by
      simp [totalSize, ht]
    have hnil : traceInfo = [] := List.eq_nil_of_length_eq_zero ht
    subst hnil
    simp only [List.length_nil, ne_eq, not_true_eq_false, if_false, List.append_nil,
      List.cons_append, List.append_assoc, List.nil_append]
    rw [htotal] at hsize ⊢
    rw [tryReadMessage_header cfg _ startByte _ _ (Or.inl rfl) hsize (by simp),
      readTraceSection_untraced]
    simp only [bind, Except.bind, readHashSection_written hhash, message_take hmsg, pure,
      Except.pure]
  · -- trace information: its size word, the hash and the message, then the trace bytes
    have htotal : totalSize message msgHash traceInfo =
        4 + (msgHash ++ message).length + traceInfo.length := by
      simp [totalSize, ht]
      omega
    simp only [ne_eq, ht, not_false_eq_true, if_true]
    rw [htotal] at hsize ⊢
    have hbuf : [msgVersionWithTraces cfg] ++ setNumber 2 cfg.networkId.toNat ++ [startByte] ++
        setNumber 4 (4 + (msgHash ++ message).length + traceInfo.length) ++
        setNumber 4 traceInfo.length ++ msgHash ++ message ++ traceInfo ++ extra =
        msgVersionWithTraces cfg :: (setNumber 2 cfg.networkId.toNat ++ startByte ::
          (setNumber 4 (4 + (msgHash ++ message).length + traceInfo.length) ++
            (setNumber 4 traceInfo.length ++ (msgHash ++ message) ++ traceInfo ++ extra))) := by
      simp
    rw [hbuf, tryReadMessage_header cfg _ startByte _ _ (Or.inr rfl) hsize (by simp; omega),
      readTraceSection_traced cfg (msgHash ++ message) traceInfo extra (by simp [hmsg])
        (fun h => ht (by rw [h, List.length_nil])) hsize]
    simp only [bind, Except.bind, List.length_append, List.append_assoc,
      readHashSection_written hhash, message_take hmsg, pure, Except.pure]

/-- A normal frame with trace information and a trailing byte reads back. -/
theorem tryReadMessage_createMessage_traced :
    tryReadMessage ⟨1, 3⟩ (createMessage ⟨1, 3⟩ [7] [] startByteNormal true [0x61] ++ [9]) =
      .ok ⟨startByteNormal, [7], [], traceInfoOf true [0x61],
        (createMessage ⟨1, 3⟩ [7] [] startByteNormal true [0x61]).length⟩ :=
  tryReadMessage_createMessage ⟨1, 3⟩ [7] [] startByteNormal true [0x61] [9] (by decide)
    (by decide) (by decide)

/-! ## What the reader reads of a buffer -/

/-- **The trace section**: the size word (four bytes, or none when the version has no traces), the
    bytes left for the rest, and the trace information after them, ending at the announced length;
    the lengths add up without a truncated subtraction. -/
theorem readTraceSection_spec {cfg : P2PConfig} {version : UInt8} {len : ℕ}
    {body rest traceInfo : List UInt8} {msgLength : ℕ} (hbody : len ≤ body.length)
    (h : readTraceSection cfg version len body = .ok (rest, msgLength, traceInfo)) :
    ∃ word, rest = body.drop word ∧ word + msgLength + traceInfo.length = len ∧
      traceInfo = (body.drop (word + msgLength)).take traceInfo.length := by
  unfold readTraceSection at h
  by_cases hv : version = msgVersionWithTraces cfg
  · rw [if_pos hv] at h
    by_cases hshort : len < 5
    · rw [if_pos hshort] at h
      cases h
    · rw [if_neg hshort] at h
      by_cases hbad : readU32BE body = 0 ∨ readU32BE body > len - 4
      · rw [if_pos hbad] at h
        cases h
      · rw [if_neg hbad] at h
        cases h
        -- the trace information is the last `traceLength` bytes of the announced length
        have hlen : ((body.drop (len - readU32BE body)).take (readU32BE body)).length =
            readU32BE body := by
          rw [List.length_take, List.length_drop]
          omega
        refine ⟨4, rfl, by omega, ?_⟩
        rw [hlen, show 4 + (len - (4 + readU32BE body)) = len - readU32BE body by omega]
  · rw [if_neg hv] at h
    cases h
    exact ⟨0, rfl, by simp, by simp⟩

/-- **The hash section**: the first `HASH_LEN` bytes of a broadcast frame, none otherwise. -/
theorem readHashSection_spec {startByte : UInt8} {body rest hash : List UInt8}
    {msgLength msgLength' : ℕ} (hbody : msgLength ≤ body.length)
    (h : readHashSection startByte body msgLength = .ok (rest, msgLength', hash)) :
    rest = body.drop hash.length ∧ hash.length + msgLength' = msgLength ∧
      hash = body.take hash.length := by
  unfold readHashSection at h
  by_cases hb : startByte = startByteBroadcast
  · rw [if_pos hb] at h
    by_cases hshort : msgLength < hashLen
    · rw [if_pos hshort] at h
      cases h
    · rw [if_neg hshort] at h
      cases h
      have hlen : (body.take hashLen).length = hashLen := by
        rw [List.length_take]
        omega
      rw [hlen]
      exact ⟨rfl, by omega, rfl⟩
  · rw [if_neg hb] at h
    cases h
    exact ⟨rfl, by simp, by simp⟩

/-- Bytes after the announced length do not change the trace section. -/
theorem readTraceSection_append (cfg : P2PConfig) (version : UInt8) {len : ℕ}
    {body : List UInt8} (hbody : len ≤ body.length) (extra : List UInt8) :
    readTraceSection cfg version len (body ++ extra) =
      (fun parsed => (parsed.1 ++ extra, parsed.2)) <$>
        readTraceSection cfg version len body := by
  unfold readTraceSection
  by_cases hv : version = msgVersionWithTraces cfg
  · rw [if_pos hv, if_pos hv]
    by_cases hshort : len < 5
    · rw [if_pos hshort, if_pos hshort]
      rfl
    · rw [if_neg hshort, if_neg hshort, readU32BE, readU32BE,
        getNumber_append_of_le body extra (by omega)]
      by_cases hbad : getNumber body 4 = 0 ∨ getNumber body 4 > len - 4
      · rw [if_pos hbad, if_pos hbad]
        rfl
      · rw [if_neg hbad, if_neg hbad, List.drop_append_of_le_length (by omega),
          List.drop_append_of_le_length (by omega),
          List.take_append_of_le_length (by rw [List.length_drop]; omega)]
        rfl
  · rw [if_neg hv, if_neg hv]
    rfl

/-- Bytes after the message do not change the hash section. -/
theorem readHashSection_append (startByte : UInt8) {body : List UInt8} {msgLength : ℕ}
    (hbody : msgLength ≤ body.length) (extra : List UInt8) :
    readHashSection startByte (body ++ extra) msgLength =
      (fun parsed => (parsed.1 ++ extra, parsed.2)) <$>
        readHashSection startByte body msgLength := by
  unfold readHashSection
  by_cases hb : startByte = startByteBroadcast
  · rw [if_pos hb, if_pos hb]
    by_cases hshort : msgLength < hashLen
    · rw [if_pos hshort, if_pos hshort]
      rfl
    · rw [if_neg hshort, if_neg hshort, List.drop_append_of_le_length (by omega),
        List.take_append_of_le_length (by omega)]
      rfl
  · rw [if_neg hb, if_neg hb]
    rfl

/-- **Bytes past the buffer change nothing the reader decides**, but whether it has enough data:
    every byte it reads lies within the buffer. -/
theorem tryReadMessage_append (cfg : P2PConfig) (buf extra : List UInt8)
    (h : tryReadMessage cfg buf ≠ .error .notEnoughData) :
    tryReadMessage cfg (buf ++ extra) = tryReadMessage cfg buf := by
  unfold tryReadMessage at h ⊢
  by_cases hshort : buf.length < hdrLen
  · rw [if_pos hshort] at h
    exact absurd rfl h
  rw [if_neg hshort] at h
  rw [if_neg hshort, if_neg (by rw [List.length_append]; omega)]
  -- the header is the first eight bytes, the same in both buffers
  have hdr : hdrLen = 8 := rfl
  have h0 : (buf ++ extra).getD 0 0 = buf.getD 0 0 := List.getD_append _ _ _ _ (by omega)
  have h3 : (buf ++ extra).getD 3 0 = buf.getD 3 0 := List.getD_append _ _ _ _ (by omega)
  have h16 : readU16BE ((buf ++ extra).drop 1) = readU16BE (buf.drop 1) := by
    rw [List.drop_append_of_le_length (by omega), readU16BE, readU16BE,
      getNumber_append_of_le _ _ (by rw [List.length_drop]; omega)]
  have h32 : readU32BE ((buf ++ extra).drop 4) = readU32BE (buf.drop 4) := by
    rw [List.drop_append_of_le_length (by omega), readU32BE, readU32BE,
      getNumber_append_of_le _ _ (by rw [List.length_drop]; omega)]
  rw [h0, h3, h16, h32, List.drop_append_of_le_length (by omega)]
  by_cases hversion : buf.getD 0 0 ≠ UInt8.ofNat cfg.msgVersion ∧
      buf.getD 0 0 ≠ msgVersionWithTraces cfg
  · rw [if_pos hversion, if_pos hversion]
    rfl
  rw [if_neg hversion] at h
  rw [if_neg hversion, if_neg hversion]
  by_cases hnet : readU16BE (buf.drop 1) ≠ cfg.networkId.toNat
  · rw [if_pos hnet, if_pos hnet]
    rfl
  rw [if_neg hnet] at h
  rw [if_neg hnet, if_neg hnet]
  by_cases hfit : buf.length < hdrLen + readU32BE (buf.drop 4)
  · rw [if_pos hfit] at h
    exact absurd rfl h
  rw [if_neg hfit, if_neg (by rw [List.length_append]; omega),
    readTraceSection_append cfg _ (by rw [List.length_drop]; omega) extra]
  -- the sections: each leaves at least as many bytes as the length it passes on
  cases htrace : readTraceSection cfg (buf.getD 0 0) (readU32BE (buf.drop 4)) (buf.drop hdrLen) with
  | error e => rfl
  | ok parsed =>
    obtain ⟨rest, msgLength, traceInfo⟩ := parsed
    obtain ⟨word, hrest, hsum, -⟩ :=
      readTraceSection_spec (by rw [List.length_drop]; omega) htrace
    have hmsg : msgLength ≤ rest.length := by
      rw [hrest, List.length_drop, List.length_drop]
      omega
    simp only [Functor.map, Except.map, bind, Except.bind]
    rw [readHashSection_append _ hmsg extra]
    cases hhash : readHashSection (buf.getD 3 0) rest msgLength with
    | error e => rfl
    | ok parsed' =>
      obtain ⟨rest', msgLength', hash⟩ := parsed'
      obtain ⟨hrest', hsum', -⟩ := readHashSection_spec hmsg hhash
      have hmsg' : msgLength' ≤ rest'.length := by
        rw [hrest', List.length_drop]
        omega
      simp only [Functor.map, Except.map, List.take_append_of_le_length hmsg']

/-- Where the sections of a frame lie in the buffer: from `hashStart`, after the header and the
    trace size word, the hash, the message and the trace information follow one another up to the
    end of the frame, which lies within the buffer. -/
structure FrameLayout (buf : List UInt8) (r : ReadMessageResult) (hashStart : ℕ) : Prop where
  header_le : hdrLen ≤ hashStart
  total_le : r.totalMessageBytes ≤ buf.length
  hash_eq : r.hash = (buf.drop hashStart).take r.hash.length
  message_eq : r.message = (buf.drop (hashStart + r.hash.length)).take r.message.length
  traceInfo_eq : r.traceInfo =
    (buf.drop (hashStart + r.hash.length + r.message.length)).take r.traceInfo.length
  end_eq : hashStart + r.hash.length + r.message.length + r.traceInfo.length = r.totalMessageBytes

/-- **A frame that reads successfully is laid out in the buffer**: its hash, message and trace
    information are consecutive ranges of the frame after its header, ending where the frame ends. -/
theorem tryReadMessage_layout {cfg : P2PConfig} {buf : List UInt8} {r : ReadMessageResult}
    (h : tryReadMessage cfg buf = .ok r) : ∃ hashStart, FrameLayout buf r hashStart := by
  unfold tryReadMessage at h
  by_cases hshort : buf.length < hdrLen
  · rw [if_pos hshort] at h
    cases h
  rw [if_neg hshort] at h
  by_cases hversion : buf.getD 0 0 ≠ UInt8.ofNat cfg.msgVersion ∧
      buf.getD 0 0 ≠ msgVersionWithTraces cfg
  · rw [if_pos hversion] at h
    cases h
  rw [if_neg hversion] at h
  by_cases hnet : readU16BE (buf.drop 1) ≠ cfg.networkId.toNat
  · rw [if_pos hnet] at h
    cases h
  rw [if_neg hnet] at h
  by_cases hfit : buf.length < hdrLen + readU32BE (buf.drop 4)
  · rw [if_pos hfit] at h
    cases h
  rw [if_neg hfit] at h
  cases htrace : readTraceSection cfg (buf.getD 0 0) (readU32BE (buf.drop 4)) (buf.drop hdrLen) with
  | error e =>
    rw [htrace] at h
    cases h
  | ok parsed =>
    obtain ⟨rest, msgLength, traceInfo⟩ := parsed
    rw [htrace] at h
    simp only [bind, Except.bind] at h
    obtain ⟨word, hrest, hsum, htraceInfo⟩ :=
      readTraceSection_spec (by rw [List.length_drop]; omega) htrace
    have hmsg : msgLength ≤ rest.length := by
      rw [hrest, List.length_drop, List.length_drop]
      omega
    cases hhash : readHashSection (buf.getD 3 0) rest msgLength with
    | error e =>
      rw [hhash] at h
      cases h
    | ok parsed' =>
      obtain ⟨rest', msgLength', hash⟩ := parsed'
      rw [hhash] at h
      cases h
      obtain ⟨hrest', hsum', hhashEq⟩ := readHashSection_spec hmsg hhash
      -- the message is all that the hash section leaves
      have hmsg' : msgLength' ≤ rest'.length := by
        rw [hrest', List.length_drop]
        omega
      have hlen : (if msgLength' > 0 then rest'.take msgLength' else []).length = msgLength' := by
        split_ifs with hpos
        · rw [List.length_take]
          omega
        · rw [List.length_nil]
          omega
      have hrestAt0 : rest = buf.drop (hdrLen + word) := by
        rw [hrest, List.drop_drop]
      have hrestAt : rest' = buf.drop (hdrLen + word + hash.length) := by
        rw [hrest', hrestAt0, List.drop_drop]
      refine ⟨hdrLen + word, by omega, ?_, ?_, ?_, ?_, ?_⟩
      · dsimp only
        omega
      · dsimp only
        rw [← hrestAt0]
        exact hhashEq
      · dsimp only
        rw [hlen, ← hrestAt]
        split_ifs with hpos
        · rfl
        · rw [show msgLength' = 0 by omega, List.take_zero]
      · dsimp only
        rw [hlen]
        refine htraceInfo.trans ?_
        rw [List.drop_drop]
        congr 2
        omega
      · dsimp only
        rw [hlen]
        omega

/-- **`TryReadMessage` stays within its buffer**: only whether it has enough data depends on bytes
    past the buffer, and on success the hash, message and trace information are consecutive ranges
    of the frame after its header, the frame lying within the buffer. -/
theorem tryReadMessage_within_buffer (cfg : P2PConfig) (buf : List UInt8) :
    (∀ extra : List UInt8, tryReadMessage cfg buf ≠ .error .notEnoughData →
      tryReadMessage cfg (buf ++ extra) = tryReadMessage cfg buf) ∧
    ∀ r, tryReadMessage cfg buf = .ok r → ∃ hashStart, FrameLayout buf r hashStart :=
  ⟨fun extra h => tryReadMessage_append cfg buf extra h, fun _ h => tryReadMessage_layout h⟩

/-- A broadcast frame with trace information. -/
def tracedBroadcast : List UInt8 :=
  createMessage ⟨1, 3⟩ [7] (List.replicate 32 5) startByteBroadcast true [0x61]

/-- The traced broadcast frame is read the same with a stray byte after it, and is laid out from
    byte `12`, after the header and the trace size word. -/
theorem tryReadMessage_within_buffer_broadcast :
    tryReadMessage ⟨1, 3⟩ (tracedBroadcast ++ [9]) = tryReadMessage ⟨1, 3⟩ tracedBroadcast ∧
      ∃ hashStart, FrameLayout tracedBroadcast
        ⟨startByteBroadcast, [7], List.replicate 32 5, [0x61], 46⟩ hashStart := by
  have hok : tryReadMessage ⟨1, 3⟩ tracedBroadcast =
      .ok ⟨startByteBroadcast, [7], List.replicate 32 5, [0x61], 46⟩ := by
    rfl
  exact ⟨(tryReadMessage_within_buffer _ _).1 [9] (by rw [hok]; exact fun h => by cases h),
    (tryReadMessage_within_buffer _ _).2 _ hok⟩

end P2P

end Zilliqa
