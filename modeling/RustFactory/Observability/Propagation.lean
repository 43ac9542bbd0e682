import RustFactory.Observability.Model

/-!
# Propagation of trace contexts

The `traceparent`, `tracestate` and baggage header values of a trace context, and the context read
back from them.
-/

namespace RustFactory.Observability

open Lib

/-! ## Hexadecimal fields -/

/-- The value of a lowercase hexadecimal digit. -/
def hexDigit (byte : UInt8) : Except ObservabilityError UInt8 :=
  if 48 ≤ byte && byte ≤ 57 then .ok (byte - 48)
  else if 97 ≤ byte && byte ≤ 102 then .ok (byte - 97 + 10)
  else .error .invalidTraceContext

/-- The bytes of so many hexadecimal digits. -/
def decodeHexArray (n : ℕ) (value : String) : Except ObservabilityError (Vector UInt8 n) :=
  if h : byteLen value = n * 2 then
    Vector.ofFnM fun index => do
      let hi ← hexDigit ((utf8 value).get ⟨index * 2, by have := index.isLt; unfold byteLen at h; omega⟩)
      let lo ← hexDigit
        ((utf8 value).get ⟨index * 2 + 1, by have := index.isLt; unfold byteLen at h; omega⟩)
      .ok (hi <<< 4 ||| lo)
  else .error .invalidTraceContext

/-- The lowercase hexadecimal digits of bytes. -/
def encodeHex (bytes : Bytes) : String := String.ofList (hexChars bytes)

theorem hexDigit_toByte {n : UInt8} (h : n < 16) :
    hexDigit (UInt8.ofNat (Lib.hexDigit n).toNat) = .ok n := by
  have hall : ∀ n : Fin 16,
      hexDigit (UInt8.ofNat (Lib.hexDigit (UInt8.ofNat n)).toNat) = .ok (UInt8.ofNat n) := by
    decide +kernel
  have hlt : n.toNat < 16 := UInt8.lt_iff_toNat_lt.mp h
  have := hall ⟨n.toNat, hlt⟩
  rwa [show UInt8.ofNat (⟨n.toNat, hlt⟩ : Fin 16) = n from UInt8.ofNat_toNat] at this

theorem joinDigits (b : UInt8) : (b / 16) <<< 4 ||| b % 16 = b := by
  have hall : ∀ n : Fin 256,
      (UInt8.ofNat n / 16) <<< 4 ||| UInt8.ofNat n % 16 = UInt8.ofNat n := by
    decide +kernel
  have := hall ⟨b.toNat, b.toNat_lt⟩
  rwa [show UInt8.ofNat (⟨b.toNat, b.toNat_lt⟩ : Fin 256) = b from UInt8.ofNat_toNat] at this

theorem hexChars_digits (bytes : Bytes) (i : ℕ) :
    (hexChars bytes)[i * 2]? = (bytes[i]?).map (fun b => Lib.hexDigit (b / 16)) ∧
    (hexChars bytes)[i * 2 + 1]? = (bytes[i]?).map fun b => Lib.hexDigit (b % 16) := by
  unfold hexChars
  induction bytes generalizing i with
  | nil => exact ⟨rfl, rfl⟩
  | cons b bytes ih =>
    cases i with
    | zero => exact ⟨rfl, rfl⟩
    | succ i =>
      rw [show (i + 1) * 2 = i * 2 + 2 by omega, show i * 2 + 2 + 1 = i * 2 + 1 + 2 by omega]
      exact ih i

theorem decodeHexArray_encodeHex {n : ℕ} (v : Vector UInt8 n) :
    decodeHexArray n (encodeHex v.toList) = .ok v := by
  have hutf8 : utf8 (encodeHex v.toList) = (hexChars v.toList).map fun c => UInt8.ofNat c.toNat :=
    utf8_ofList_hex fun c hc => isHexChar_of_mem_hexChars hc
  have hlen : byteLen (encodeHex v.toList) = n * 2 := by
    unfold byteLen
    rw [hutf8, List.length_map, length_hexChars, Vector.length_toList, Nat.mul_comm]
  have hdigit : ∀ (i : Fin n) (j : ℕ) (d : UInt8) (hj : j < (utf8 (encodeHex v.toList)).length),
      d < 16 → (hexChars v.toList)[j]? = some (Lib.hexDigit d) →
        hexDigit ((utf8 (encodeHex v.toList)).get ⟨j, hj⟩) = .ok d := by
    intro i j d hj hd hchar
    have hget : (utf8 (encodeHex v.toList))[j]? = some (UInt8.ofNat (Lib.hexDigit d).toNat) := by
      rw [hutf8, List.getElem?_map, hchar, Option.map_some]
    rw [List.get_eq_getElem, List.getElem_eq_iff hj |>.mpr hget]
    exact hexDigit_toByte hd
  unfold decodeHexArray
  rw [dif_pos hlen]
  have hbyte : ∀ i : Fin n, v.toList[i.val]? = some v[i] := by
    intro i
    rw [Vector.getElem?_toList, Vector.getElem?_eq_getElem i.isLt]
    rfl
  calc _ = Vector.ofFnM fun i : Fin n => (pure v[i] : Except ObservabilityError UInt8) := by
        congr 1
        funext i
        obtain ⟨heven, hodd⟩ := hexChars_digits v.toList i
        rw [hbyte i, Option.map_some] at heven hodd
        rw [hdigit i _ _ _ (highDigit_lt _) heven, hdigit i _ _ _ (lowDigit_lt _) hodd, ok_bind,
          ok_bind, joinDigits]
        rfl
    _ = .ok v := by
        rw [Vector.ofFnM_pure]
        exact congrArg Except.ok Vector.ofFn_getElem

/-! ## `traceparent` -/

def supportedVersion : String := "00"

/-- Every failure is the same error, so the fields are taken at once. -/
def parseTraceparent (value : String) :
    Except ObservabilityError (TraceId × SpanId × TraceFlags) :=
  match split '-' value with
  | [version, traceIdHex, spanIdHex, flagsHex] =>
    if version ≠ supportedVersion then .error .invalidTraceContext
    else do
      let traceId ← TraceId.new (← decodeHexArray 16 traceIdHex)
      let spanId ← SpanId.new (← decodeHexArray 8 spanIdHex)
      let flags ← decodeHexArray 1 flagsHex
      .ok (traceId, spanId, ⟨flags[0]⟩)
  | _ => .error .invalidTraceContext

def formatTraceparent (traceId : TraceId) (spanId : SpanId) (flags : TraceFlags) : String :=
  "-".intercalate [supportedVersion, encodeHex traceId.asBytes.toList,
    encodeHex spanId.asBytes.toList, encodeHex [flags.asRaw]]

theorem dash_not_mem_encodeHex (bytes : Bytes) : '-' ∉ (encodeHex bytes).toList := by
  unfold encodeHex
  rw [String.toList_ofList]
  intro h
  exact absurd (isHexChar_of_mem_hexChars h) (by decide)

theorem parseTraceparent_formatTraceparent (traceId : TraceId) (spanId : SpanId)
    (flags : TraceFlags) :
    parseTraceparent (formatTraceparent traceId spanId flags) = .ok (traceId, spanId, flags) := by
  have hsplit : split '-' (formatTraceparent traceId spanId flags) =
      [supportedVersion, encodeHex traceId.asBytes.toList, encodeHex spanId.asBytes.toList,
        encodeHex [flags.asRaw]] := by
    refine split_intercalate (by simp) ?_
    simp only [List.forall_mem_cons, dash_not_mem_encodeHex, not_false_eq_true, true_and]
    exact ⟨by decide, nofun⟩
  have hflags : decodeHexArray 1 (encodeHex [flags.asRaw]) = .ok #v[flags.asRaw] :=
    decodeHexArray_encodeHex #v[flags.asRaw]
  unfold parseTraceparent
  rw [hsplit]
  simp only [ne_eq, not_true_eq_false, if_false, decodeHexArray_encodeHex, hflags, ok_bind,
    TraceId.new_asBytes, SpanId.new_asBytes]
  rfl

/-! ## `tracestate` and baggage -/

def parseTraceState (value : String) : Except ObservabilityError String :=
  if byteLen value ≤ maxTracestateBytes then .ok value else .error .limitExceeded

/-- The bytes of one `key=value` member with its comma. -/
def maxBaggageMemberBytes : ℕ := maxIdentifierBytes + 1 + maxBaggageValueBytes + 1

/-- One member of a baggage header: nothing, or a trimmed key and value.  Properties after a `;`
are discarded. -/
def parseMember (member : String) : Except ObservabilityError (Option (String × String)) :=
  let member := trim ((split ';' member).headD "")
  if member.isEmpty then .ok none
  else
    match splitn2 '=' member with
    | (_, none) => .error .invalidTraceContext
    | (key, some rawValue) =>
      if (trim key).isEmpty then .error .invalidTraceContext
      else .ok (some (trim key, trim rawValue))

/-- The loop over the members. -/
def parseMembers :
    List String → BTreeMap String String → Except ObservabilityError (BTreeMap String String)
  | [], baggage => .ok baggage
  | member :: members, baggage =>
    match parseMember member with
    | .error e => .error e
    | .ok none => parseMembers members baggage
    | .ok (some (key, value)) =>
      if maxBaggageEntries ≤ baggage.size then .error .limitExceeded
      else parseMembers members (baggage.insert key value)

def parseBaggage (value : String) : Except ObservabilityError (BTreeMap String String) :=
  if maxBaggageEntries * maxBaggageMemberBytes < byteLen value then .error .limitExceeded
  else if (trim value).isEmpty then .ok ∅
  else parseMembers (split ',' value) ∅

def formatMember (entry : String × String) : String := entry.1 ++ "=" ++ entry.2

def formatBaggage (baggage : BTreeMap String String) : String :=
  ",".intercalate (baggage.toList.map formatMember)

/-! ## Extraction and injection -/

/-- The trace context of the headers. -/
def extract (traceparent : String) (traceState baggage : Option String) :
    Except ObservabilityError TraceContextV1 := do
  let (traceId, spanId, flags) ← parseTraceparent traceparent
  let traceState ← traceState.mapM parseTraceState
  let baggage ← baggage.mapM parseBaggage
  TraceContextV1.new traceId spanId flags traceState (baggage.getD ∅)

def inject (context : TraceContextV1) : String × Option String × Option String :=
  (formatTraceparent context.traceId context.spanId context.traceFlags,
    context.traceState,
    if context.baggage.isEmpty then none else some (formatBaggage context.baggage))

/-! ## What validation says of keys and values -/

theorem validateLabel_eq_some {value : String} (h : validateLabel value = some ()) :
    utf8 value ≠ [] ∧ byteLen value ≤ maxIdentifierBytes ∧ ∀ b ∈ utf8 value, isLabelByte b := by
  unfold validateLabel at h
  cases hbytes : utf8 value with
  | nil => rw [hbytes] at h; cases h
  | cons first rest =>
    rw [hbytes] at h
    simp only [ite_eq_left_iff, reduceCtorEq, imp_false, not_not, Bool.and_eq_true,
      decide_eq_true_eq, List.all_eq_true] at h
    obtain ⟨⟨hlen, hfirst⟩, hrest⟩ := h
    refine ⟨List.cons_ne_nil _ _, hlen, List.forall_mem_cons.mpr ⟨?_, hrest⟩⟩
    unfold isLabelByte
    rw [hfirst]
    rfl

/-- The characters of a label are neither white space nor delimiters. -/
theorem labelChar {value : String} (h : validateLabel value = some ()) {c : Char}
    (hc : c ∈ value.toList) : ¬isWhitespace c ∧ c ∉ [',', ';', '='] := by
  obtain ⟨-, -, hbytes⟩ := validateLabel_eq_some h
  have hall : ∀ n : Fin 256, isLabelByte (UInt8.ofNat n) →
      n.val < 128 ∧ ¬isWhitespace (Char.ofNat n) ∧ Char.ofNat n ∉ [',', ';', '='] := by
    decide +kernel
  exact forall_char_of_utf8 (P := fun c => ¬isWhitespace c ∧ c ∉ [',', ';', '='])
    (fun n hn => hall ⟨n, hn⟩) hbytes c hc

theorem validateBaggageEntry_eq_ok {key value : String} :
    validateBaggageEntry key value = .ok () ↔ validateLabel key = some () ∧
      byteLen value ≤ maxBaggageValueBytes ∧ ∀ b ∈ utf8 value, ¬isReservedByte b := by
  unfold validateBaggageEntry
  rw [bind_eq_ok, Unique.exists_iff, okOr_eq_ok]
  refine and_congr_right fun _ => ?_
  by_cases hlen : maxBaggageValueBytes < byteLen value
  · rw [if_pos hlen]
    exact iff_of_false nofun fun h => absurd h.1 (Nat.not_le.mpr hlen)
  · rw [if_neg hlen, and_iff_right (Nat.not_lt.mp hlen)]
    by_cases hany : (utf8 value).any isReservedByte
    · rw [if_pos hany]
      obtain ⟨b, hb, hreserved⟩ := List.any_eq_true.mp hany
      exact iff_of_false nofun fun h => h b hb hreserved
    · rw [if_neg hany]
      refine iff_of_true rfl fun b hb hreserved => hany ?_
      exact List.any_eq_true.mpr ⟨b, hb, hreserved⟩

theorem valueChar {key value : String} (h : validateBaggageEntry key value = .ok ()) {c : Char}
    (hc : c ∈ value.toList) : c ∉ [',', ';', '='] := by
  obtain ⟨-, -, hbytes⟩ := validateBaggageEntry_eq_ok.mp h
  intro hmem
  have hreserved : c.toNat < 128 ∧ isReservedByte (UInt8.ofNat c.toNat) := by
    simp only [List.mem_cons, List.not_mem_nil, or_false] at hmem
    rcases hmem with rfl | rfl | rfl <;> decide
  exact hbytes _ (mem_utf8_of_ascii hc hreserved.1) hreserved.2

theorem validateBaggageEntry_trim {key value : String}
    (h : validateBaggageEntry key value = .ok ()) :
    validateBaggageEntry key (trim value) = .ok () := by
  obtain ⟨hkey, hlen, hbytes⟩ := validateBaggageEntry_eq_ok.mp h
  exact validateBaggageEntry_eq_ok.mpr ⟨hkey, (trim_sublist value).length_le.trans hlen,
    fun b hb => hbytes b ((trim_sublist value).subset hb)⟩

/-! ## Reading baggage back -/

theorem toList_formatMember (entry : String × String) :
    (formatMember entry).toList = entry.1.toList ++ '=' :: entry.2.toList := by
  unfold formatMember
  rw [String.toList_append, String.toList_append, List.append_assoc]
  rfl

theorem not_mem_formatMember {entry : String × String}
    (h : validateBaggageEntry entry.1 entry.2 = .ok ()) {c : Char} (hc : c ∈ [',', ';']) :
    c ∉ (formatMember entry).toList := by
  obtain ⟨hkey, -, -⟩ := validateBaggageEntry_eq_ok.mp h
  have hdelimiter : c ∈ [',', ';', '='] := List.mem_append_left ['='] hc
  rw [toList_formatMember, List.mem_append, List.mem_cons]
  rintro (hmem | rfl | hmem)
  · exact (labelChar hkey hmem).2 hdelimiter
  · exact absurd hc (by decide)
  · exact valueChar h hmem hdelimiter

/-- The key of a member comes back, and its value trimmed. -/
theorem parseMember_formatMember {entry : String × String}
    (h : validateBaggageEntry entry.1 entry.2 = .ok ()) :
    parseMember (formatMember entry) = .ok (some (entry.1, trim entry.2)) := by
  obtain ⟨hkey, -, -⟩ := validateBaggageEntry_eq_ok.mp h
  obtain ⟨hne, -, -⟩ := validateLabel_eq_some hkey
  -- The right end of the value goes with the white space around the member, the left end after
  -- the `=`.
  let value := String.ofList (entry.2.toList.rdropWhile isWhitespace)
  have hmember : trim (formatMember entry) = entry.1 ++ String.singleton '=' ++ value := by
    rw [← String.toList_inj, toList_trim, toList_formatMember, strip_append_cons (by decide),
      List.dropWhile_eq_self_iff.mpr, String.toList_append, String.toList_append,
      String.toList_singleton, String.toList_ofList, List.append_assoc]
    · rfl
    · intro hpos
      exact (labelChar hkey (List.getElem_mem hpos)).1
  have hvalue : trim value = trim entry.2 := by
    rw [← String.toList_inj, toList_trim, toList_trim, String.toList_ofList, strip_rdropWhile]
  have htrim : trim entry.1 = entry.1 := trim_of_forall fun c hc => (labelChar hkey hc).1
  have hkeyNe : entry.1.isEmpty = false := by
    rw [Bool.eq_false_iff, ne_eq, String.isEmpty_iff]
    intro hempty
    exact hne (by rw [hempty]; rfl)
  have hmemberNe : (entry.1 ++ String.singleton '=' ++ value).isEmpty = false := by
    rw [Bool.eq_false_iff, ne_eq, String.isEmpty_iff, ← String.toList_inj]
    simp
  have hequals : '=' ∉ entry.1.toList := fun hmem => (labelChar hkey hmem).2 (by decide)
  unfold parseMember
  rw [split_of_not_mem (not_mem_formatMember h (by decide)), List.headD_cons, hmember]
  simp only [hmemberNe, Bool.false_eq_true, if_false, splitn2_of_mem hequals, htrim, hkeyNe, hvalue]

/-- Members with new keys are all read, while the baggage has room. -/
theorem parseMembers_formatMember {entries : List (String × String)}
    (hvalid : ∀ entry ∈ entries, validateBaggageEntry entry.1 entry.2 = .ok ())
    (hordered : entries.Pairwise fun a b => a.1 < b.1) (baggage : BTreeMap String String)
    (hfresh : ∀ entry ∈ entries, entry.1 ∉ baggage)
    (hsize : baggage.size + entries.length ≤ maxBaggageEntries) :
    parseMembers (entries.map formatMember) baggage =
      .ok (entries.foldl (fun acc entry => acc.insert entry.1 (trim entry.2)) baggage) := by
  induction entries generalizing baggage with
  | nil => rfl
  | cons entry entries ih =>
    rw [List.length_cons] at hsize
    rw [List.pairwise_cons] at hordered
    rw [List.forall_mem_cons] at hvalid hfresh
    have hroom : ¬maxBaggageEntries ≤ baggage.size := by omega
    rw [List.map_cons, parseMembers, parseMember_formatMember hvalid.1]
    simp only [if_neg hroom, List.foldl_cons]
    refine ih hvalid.2 hordered.2 _ (fun other hother => ?_) ?_
    · rw [Std.ExtTreeMap.mem_insert, compare_eq_iff_eq]
      rintro (heq | hmem)
      · exact absurd heq (hordered.1 other hother).ne
      · exact hfresh.2 other hother hmem
    · rw [Std.ExtTreeMap.size_insert, if_neg (by rw [Std.ExtTreeMap.contains_iff_mem]; exact hfresh.1)]
      omega

example : formatMember ("key", "value") = "key=value" := by decide +kernel

theorem byteLen_formatMember {entry : String × String}
    (h : validateBaggageEntry entry.1 entry.2 = .ok ()) :
    byteLen (formatMember entry) + 1 ≤ maxBaggageMemberBytes := by
  obtain ⟨hkey, hvalue, -⟩ := validateBaggageEntry_eq_ok.mp h
  obtain ⟨-, hlen, -⟩ := validateLabel_eq_some hkey
  unfold byteLen at hlen hvalue
  unfold byteLen formatMember maxBaggageMemberBytes
  rw [utf8_append, utf8_append, List.length_append, List.length_append,
    show (utf8 "=").length = 1 by decide +kernel]
  omega

theorem parseBaggage_formatBaggage {baggage : BTreeMap String String}
    (hvalid : ∀ entry ∈ baggage.toList, validateBaggageEntry entry.1 entry.2 = .ok ())
    (hsize : baggage.size ≤ maxBaggageEntries) (hne : ¬baggage.isEmpty) :
    parseBaggage (formatBaggage baggage) = .ok (baggage.map fun _ => trim) := by
  have hlength : baggage.toList.length = baggage.size := Std.ExtTreeMap.length_toList
  have hnil : baggage.toList ≠ [] := by
    intro hnil
    rw [hnil] at hlength
    exact hne (Std.ExtTreeMap.isEmpty_eq_size_beq_zero.trans (by rw [← hlength]; rfl))
  have hbound : ¬maxBaggageEntries * maxBaggageMemberBytes < byteLen (formatBaggage baggage) := by
    refine Nat.not_lt.mpr ((byteLen_intercalate_le ?_).trans (Nat.mul_le_mul_right _ ?_))
    · intro member hmember
      obtain ⟨entry, hentry, rfl⟩ := List.mem_map.mp hmember
      exact byteLen_formatMember (hvalid entry hentry)
    · rw [List.length_map, hlength]
      exact hsize
  have htrim : (trim (formatBaggage baggage)).isEmpty = false := by
    obtain ⟨entry, entries, hentries⟩ := List.exists_cons_of_ne_nil hnil
    obtain ⟨rest, hrest⟩ := intercalate_cons "," (formatMember entry) (entries.map formatMember)
    rw [Bool.eq_false_iff, ne_eq, String.isEmpty_iff, ← String.toList_inj, toList_trim]
    intro hempty
    refine absurd (strip_eq_nil_iff.mp hempty '=' ?_) (by decide)
    unfold formatBaggage
    rw [hentries, List.map_cons, hrest, String.toList_append, toList_formatMember]
    simp
  unfold parseBaggage
  rw [if_neg hbound, htrim, if_neg Bool.false_ne_true]
  unfold formatBaggage
  rw [show "," = String.singleton ',' from rfl, split_intercalate]
  · rw [parseMembers_formatMember hvalid (BTreeMap.ordered_toList baggage) ∅ (by simp),
      BTreeMap.foldl_insert_toList]
    rw [hlength]
    simpa using hsize
  · exact fun hmap => hnil (List.map_eq_nil_iff.mp hmap)
  · intro member hmember
    obtain ⟨entry, hentry, rfl⟩ := List.mem_map.mp hmember
    exact not_mem_formatMember (hvalid entry hentry) (by decide)

/-! ## Round trips -/

theorem validateTraceContext_eq_ok {context : TraceContextV1} :
    validateTraceContext context = .ok () ↔ validateTraceState context.traceState = .ok () ∧
      context.baggage.size ≤ maxBaggageEntries ∧
      ∀ entry ∈ context.baggage.toList, validateBaggageEntry entry.1 entry.2 = .ok () := by
  unfold validateTraceContext
  rw [bind_eq_ok, Unique.exists_iff]
  refine and_congr_right fun _ => ?_
  by_cases hsize : maxBaggageEntries < context.baggage.size
  · rw [if_pos hsize]
    exact iff_of_false nofun fun h => absurd h.1 (Nat.not_le.mpr hsize)
  · rw [if_neg hsize, and_iff_right (Nat.not_lt.mp hsize)]
    exact forM_eq_ok

theorem TraceContextV1.new_eq_ok {traceId : TraceId} {spanId : SpanId} {flags : TraceFlags}
    {state : Option String} {baggage : BTreeMap String String} {context : TraceContextV1} :
    TraceContextV1.new traceId spanId flags state baggage = .ok context ↔
      validateTraceContext context = .ok () ∧ context = ⟨traceId, spanId, flags, state, baggage⟩ := by
  unfold TraceContextV1.new
  rw [bind_eq_ok, Unique.exists_iff]
  constructor
  · rintro ⟨hvalid, h⟩
    cases h
    exact ⟨hvalid, rfl⟩
  · rintro ⟨hvalid, rfl⟩
    exact ⟨hvalid, rfl⟩

theorem mapM_parseTraceState {state : Option String} (h : validateTraceState state = .ok ()) :
    state.mapM parseTraceState = .ok state := by
  cases state with
  | none => rfl
  | some state =>
    simp only [validateTraceState] at h
    by_cases hlen : maxTracestateBytes < byteLen state
    · rw [if_pos hlen] at h
      cases h
    · have hparse : parseTraceState state = .ok state := if_pos (Nat.not_lt.mp hlen)
      rw [Option.mapM_some, hparse]
      rfl

/-- What a valid context is after injection and extraction: its baggage values are trimmed. -/
theorem extract_inject {context : TraceContextV1} (h : validateTraceContext context = .ok ()) :
    extract (inject context).1 (inject context).2.1 (inject context).2.2 =
      .ok { context with baggage := context.baggage.map fun _ => trim } := by
  obtain ⟨hstate, hsize, hentries⟩ := validateTraceContext_eq_ok.mp h
  have hbaggage : ((inject context).2.2.mapM parseBaggage).map (·.getD ∅) =
      .ok (context.baggage.map fun _ => trim) := by
    unfold inject
    by_cases hempty : context.baggage.isEmpty
    · rw [if_pos hempty, Std.ExtTreeMap.isEmpty_iff.mp hempty]
      rfl
    · rw [if_neg hempty, Option.mapM_some, parseBaggage_formatBaggage hentries hsize hempty]
      rfl
  have hnew : TraceContextV1.new context.traceId context.spanId context.traceFlags
      context.traceState (context.baggage.map fun _ => trim) =
        .ok { context with baggage := context.baggage.map fun _ => trim } := by
    refine TraceContextV1.new_eq_ok.mpr ⟨validateTraceContext_eq_ok.mpr ⟨hstate, ?_, ?_⟩, rfl⟩
    · rw [Std.ExtTreeMap.size_map]
      exact hsize
    · intro entry hentry
      rw [Std.ExtTreeMap.toList_map] at hentry
      obtain ⟨entry, hmem, rfl⟩ := List.mem_map.mp hentry
      exact validateBaggageEntry_trim (hentries entry hmem)
  unfold extract
  rw [show (inject context).1 = formatTraceparent context.traceId context.spanId context.traceFlags
    from rfl, parseTraceparent_formatTraceparent, ok_bind,
    show (inject context).2.1 = context.traceState from rfl, mapM_parseTraceState hstate]
  simp only [ok_bind]
  cases hread : (inject context).2.2.mapM parseBaggage with
  | error e => rw [hread] at hbaggage; cases hbaggage
  | ok read =>
    rw [hread] at hbaggage
    have hmap : read.getD ∅ = context.baggage.map fun _ => trim := Except.ok.inj hbaggage
    rw [ok_bind, hmap]
    exact hnew

/-- A context accepted by its constructor comes back exactly where no baggage value has white space
at an end. -/
theorem extract_inject_iff {traceId : TraceId} {spanId : SpanId} {flags : TraceFlags}
    {state : Option String} {baggage : BTreeMap String String} {context : TraceContextV1}
    (h : TraceContextV1.new traceId spanId flags state baggage = .ok context) :
    extract (inject context).1 (inject context).2.1 (inject context).2.2 = .ok context ↔
      ∀ (key value : String), context.baggage[key]? = some value → Unpadded value := by
  rw [extract_inject (TraceContextV1.new_eq_ok.mp h).1, Except.ok.injEq]
  constructor
  · intro heq key value hvalue
    have hmap : context.baggage.map (fun _ => trim) = context.baggage :=
      congrArg TraceContextV1.baggage heq
    have hkey : (context.baggage.map fun _ => trim)[key]? = some (trim value) := by
      rw [Std.ExtTreeMap.getElem?_map, hvalue, Option.map_some]
    rw [hmap, hvalue] at hkey
    exact trim_eq_self_iff.mp (Option.some.inj hkey).symm
  · intro hvalues
    have hmap : context.baggage.map (fun _ => trim) = context.baggage := by
      ext key value
      rw [Std.ExtTreeMap.getElem?_map]
      cases hvalue : context.baggage[key]? with
      | none => rfl
      | some held => rw [Option.map_some, trim_eq_self_iff.mpr (hvalues key held hvalue)]
    rw [hmap]

/-- A context with one baggage entry `k`. -/
def sampleContext (value : String) : TraceContextV1 where
  traceId := ⟨Vector.replicate 16 1, by decide⟩
  spanId := ⟨Vector.replicate 8 2, by decide⟩
  traceFlags := ⟨1⟩
  traceState := some "vendor=state"
  baggage := (∅ : BTreeMap String String).insert "k" value

theorem baggage_sampleContext (key value : String) :
    (sampleContext value).baggage[key]? = if key = "k" then some value else none := by
  unfold sampleContext
  rw [Std.ExtTreeMap.getElem?_insert]
  by_cases hkey : key = "k"
  · rw [if_pos hkey, if_pos (compare_eq_iff_eq.mpr hkey.symm)]
  · rw [if_neg hkey, if_neg (fun h => hkey (compare_eq_iff_eq.mp h).symm)]
    exact Std.ExtTreeMap.getElem?_empty

theorem forall_baggage_sampleContext {value : String} {P : String → String → Prop}
    (h : P "k" value) {key held : String} (hheld : (sampleContext value).baggage[key]? = some held) :
    P key held := by
  rw [baggage_sampleContext] at hheld
  by_cases hkey : key = "k"
  · rw [if_pos hkey] at hheld
    rw [hkey, ← Option.some.inj hheld]
    exact h
  · rw [if_neg hkey] at hheld
    cases hheld

theorem new_sampleContext {value : String} (h : validateBaggageEntry "k" value = .ok ()) :
    TraceContextV1.new (sampleContext value).traceId (sampleContext value).spanId
      (sampleContext value).traceFlags (sampleContext value).traceState
      (sampleContext value).baggage = .ok (sampleContext value) := by
  have hstate : validateTraceState (some "vendor=state") = .ok () := by decide +kernel
  refine TraceContextV1.new_eq_ok.mpr ⟨validateTraceContext_eq_ok.mpr ⟨hstate, ?_, ?_⟩, rfl⟩
  · unfold sampleContext
    rw [Std.ExtTreeMap.size_insert]
    decide +kernel
  · intro entry hentry
    exact forall_baggage_sampleContext (P := fun key held => validateBaggageEntry key held = .ok ()) h
      (BTreeMap.mem_toList.mp hentry)

/-- The value `v` comes back. -/
theorem extract_inject_sample :
    extract (inject (sampleContext "v")).1 (inject (sampleContext "v")).2.1
      (inject (sampleContext "v")).2.2 = .ok (sampleContext "v") := by
  have htrim : trim "v" = "v" := by decide +kernel
  refine (extract_inject_iff (new_sampleContext (by decide +kernel))).mpr fun key value h => ?_
  exact forall_baggage_sampleContext (P := fun _ => Unpadded) (trim_eq_self_iff.mp htrim) h

/-- The value `v` with a space after it is accepted, and comes back without the space. -/
theorem extract_inject_padded :
    TraceContextV1.new (sampleContext "v ").traceId (sampleContext "v ").spanId
      (sampleContext "v ").traceFlags (sampleContext "v ").traceState
      (sampleContext "v ").baggage = .ok (sampleContext "v ") ∧
    extract (inject (sampleContext "v ")).1 (inject (sampleContext "v ")).2.1
      (inject (sampleContext "v ")).2.2 = .ok (sampleContext "v") ∧
    sampleContext "v" ≠ sampleContext "v " := by
  have hvalid : validateBaggageEntry "k" "v " = .ok () := by decide +kernel
  have htrim : trim "v " = "v" := by decide +kernel
  have hnew := new_sampleContext hvalid
  refine ⟨hnew, ?_, fun heq => ?_⟩
  · have hmap : (sampleContext "v ").baggage.map (fun _ => trim) = (sampleContext "v").baggage := by
      ext key value
      rw [Std.ExtTreeMap.getElem?_map, baggage_sampleContext, baggage_sampleContext]
      by_cases hkey : key = "k"
      · rw [if_pos hkey, if_pos hkey, Option.map_some, htrim]
      · rw [if_neg hkey, if_neg hkey, Option.map_none]
    rw [extract_inject (TraceContextV1.new_eq_ok.mp hnew).1, hmap]
    rfl
  · have hvalue : (sampleContext "v").baggage["k"]? = (sampleContext "v ").baggage["k"]? := by
      rw [heq]
    rw [baggage_sampleContext, baggage_sampleContext, if_pos rfl, if_pos rfl] at hvalue
    exact absurd (Option.some.inj hvalue) (by decide)

end RustFactory.Observability
