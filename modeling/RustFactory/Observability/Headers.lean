import RustFactory.Lib.Records
import RustFactory.Observability.Propagation

/-!
# What the header parsers accept

`parseTraceparent` is the inverse of `formatTraceparent` on exactly the strings that it writes.
`parseBaggage` reads a header as the list of its entries, each replacing what its key held before;
where it refuses a header that fits is said by `RepeatsWhenFull`.
-/

namespace RustFactory.Observability

open Lib BTreeMap

/-! ## `traceparent` -/

theorem eq_digit_of_hexDigit {byte d : UInt8} (h : hexDigit byte = .ok d) :
    d < 16 ∧ byte = UInt8.ofNat (Lib.hexDigit d).toNat := by
  have hall : ∀ n : Fin 256, ∀ d, hexDigit (UInt8.ofNat n) = .ok d →
      d < 16 ∧ UInt8.ofNat n = UInt8.ofNat (Lib.hexDigit d).toNat := by
    have hdigit : ∀ n : Fin 256, (hexDigit (UInt8.ofNat n)).toOption.all fun d =>
        d < 16 ∧ UInt8.ofNat n = UInt8.ofNat (Lib.hexDigit d).toNat := by decide +kernel
    intro n d hd
    have := hdigit n
    rw [hd] at this
    exact of_decide_eq_true this
  have := hall ⟨byte.toNat, byte.toNat_lt⟩ d
  rw [show UInt8.ofNat (⟨byte.toNat, byte.toNat_lt⟩ : Fin 256) = byte from UInt8.ofNat_toNat] at this
  exact this h

theorem splitDigits {hi lo : UInt8} (hhi : hi < 16) (hlo : lo < 16) :
    (hi <<< 4 ||| lo) / 16 = hi ∧ (hi <<< 4 ||| lo) % 16 = lo := by
  have hall : ∀ m n : Fin 16,
      (UInt8.ofNat m <<< 4 ||| UInt8.ofNat n) / 16 = UInt8.ofNat m ∧
        (UInt8.ofNat m <<< 4 ||| UInt8.ofNat n) % 16 = UInt8.ofNat n := by
    decide +kernel
  have := hall ⟨hi.toNat, UInt8.lt_iff_toNat_lt.mp hhi⟩ ⟨lo.toNat, UInt8.lt_iff_toNat_lt.mp hlo⟩
  simpa using this

/-- A vector filled without an error holds what was computed for each place. -/
theorem getElem_of_ofFnM {n : ℕ} {f : Fin n → Except ObservabilityError UInt8} {v : Vector UInt8 n}
    (h : Vector.ofFnM f = .ok v) (i : Fin n) : f i = .ok v[i] := by
  induction n with
  | zero => exact i.elim0
  | succ n ih =>
    rw [Vector.ofFnM_succ] at h
    obtain ⟨init, hinit, h⟩ := bind_eq_ok.mp h
    obtain ⟨last, hlast, h⟩ := bind_eq_ok.mp h
    obtain rfl := Except.ok.inj h
    cases i using Fin.lastCases with
    | last =>
      rw [hlast]
      simp
    | cast i =>
      rw [ih hinit i]
      simp

theorem eq_encodeHex_of_decodeHexArray {n : ℕ} {value : String} {v : Vector UInt8 n}
    (h : decodeHexArray n value = .ok v) : value = encodeHex v.toList := by
  unfold decodeHexArray at h
  split at h
  · rename_i hlen
    have hutf8 : utf8 (encodeHex v.toList) =
        (hexChars v.toList).map fun c => UInt8.ofNat c.toNat :=
      utf8_ofList_hex fun c hc => isHexChar_of_mem_hexChars hc
    refine utf8_injective (List.ext_getElem? fun j => ?_)
    rw [hutf8, List.getElem?_map]
    by_cases hj : j / 2 < n
    · have hbyte := getElem_of_ofFnM h ⟨j / 2, hj⟩
      obtain ⟨hi, hhi, hbyte⟩ := bind_eq_ok.mp hbyte
      obtain ⟨lo, hlo, hbyte⟩ := bind_eq_ok.mp hbyte
      obtain ⟨hhi16, hhi⟩ := eq_digit_of_hexDigit hhi
      obtain ⟨hlo16, hlo⟩ := eq_digit_of_hexDigit hlo
      obtain ⟨hhigh, hlow⟩ := splitDigits hhi16 hlo16
      have hdigits := hexChars_digits v.toList (j / 2)
      have hmem : v.toList[j / 2]? = some (hi <<< 4 ||| lo) := by
        rw [Vector.getElem?_toList, Vector.getElem?_eq_getElem hj, Except.ok.inj hbyte]
        rfl
      rw [hmem, Option.map_some, Option.map_some, hhigh, hlow] at hdigits
      rw [List.get_eq_getElem] at hhi hlo
      rcases Nat.mod_two_eq_zero_or_one j with heven | hodd
      · have hindex : j = j / 2 * 2 := by omega
        rw [hindex, hdigits.1, Option.map_some, ← hhi]
        exact List.getElem?_eq_getElem _
      · have hindex : j = j / 2 * 2 + 1 := by omega
        rw [hindex, hdigits.2, Option.map_some, ← hlo]
        exact List.getElem?_eq_getElem _
    · have hshort : (hexChars v.toList).length ≤ j := by
        rw [length_hexChars, Vector.length_toList]
        omega
      have hbytes : (utf8 value).length ≤ j := by
        show byteLen value ≤ j
        omega
      rw [List.getElem?_eq_none hshort, List.getElem?_eq_none hbytes]
      rfl
  · cases h

theorem TraceId.asBytes_of_new {bytes : Vector UInt8 16} {id : TraceId}
    (h : TraceId.new bytes = .ok id) : id.asBytes = bytes := by
  unfold TraceId.new at h
  split_ifs at h
  obtain rfl := Except.ok.inj h
  rfl

theorem SpanId.asBytes_of_new {bytes : Vector UInt8 8} {id : SpanId}
    (h : SpanId.new bytes = .ok id) : id.asBytes = bytes := by
  unfold SpanId.new at h
  split_ifs at h
  obtain rfl := Except.ok.inj h
  rfl

theorem eq_formatTraceparent_of_parseTraceparent {value : String} {traceId : TraceId}
    {spanId : SpanId} {flags : TraceFlags}
    (h : parseTraceparent value = .ok (traceId, spanId, flags)) :
    value = formatTraceparent traceId spanId flags := by
  unfold parseTraceparent at h
  split at h
  · rename_i version traceIdHex spanIdHex flagsHex hsplit
    split_ifs at h with hversion
    obtain ⟨traceBytes, htraceHex, h⟩ := bind_eq_ok.mp h
    obtain ⟨trace, htrace, h⟩ := bind_eq_ok.mp h
    obtain ⟨spanBytes, hspanHex, h⟩ := bind_eq_ok.mp h
    obtain ⟨span, hspan, h⟩ := bind_eq_ok.mp h
    obtain ⟨flagBytes, hflagHex, h⟩ := bind_eq_ok.mp h
    cases h
    have hflags : flagBytes.toList = [flagBytes[0]] := by
      refine List.ext_getElem flagBytes.length_toList fun i hi hone => ?_
      obtain rfl : i = 0 := Nat.lt_one_iff.mp hone
      exact Vector.getElem_toList _
    unfold formatTraceparent
    rw [TraceId.asBytes_of_new htrace, SpanId.asBytes_of_new hspan, ← hflags,
      ← eq_encodeHex_of_decodeHexArray htraceHex, ← eq_encodeHex_of_decodeHexArray hspanHex,
      ← eq_encodeHex_of_decodeHexArray hflagHex, ← not_not.mp hversion, ← hsplit]
    exact (intercalate_split '-' value).symm
  · cases h

/-- Version `00`, then 32, 16 and 2 lowercase hexadecimal digits, with dashes between. -/
structure TraceparentLayout (value : String) (traceId spanId flags : List Char) : Prop where
  fields : value.toList =
    ['0', '0', '-'] ++ traceId ++ ['-'] ++ spanId ++ ['-'] ++ flags
  traceDigits : traceId.length = 32
  spanDigits : spanId.length = 16
  flagDigits : flags.length = 2
  lowercase : ∀ c ∈ traceId ++ spanId ++ flags, isHexChar c

theorem traceparentLayout_formatTraceparent (traceId : TraceId) (spanId : SpanId)
    (flags : TraceFlags) :
    TraceparentLayout (formatTraceparent traceId spanId flags) (hexChars traceId.asBytes.toList)
      (hexChars spanId.asBytes.toList) (hexChars [flags.asRaw]) where
  fields := by
    unfold formatTraceparent encodeHex supportedVersion
    rw [String.toList_intercalate]
    simp [List.intercalate]
  traceDigits := by rw [length_hexChars, Vector.length_toList]
  spanDigits := by rw [length_hexChars, Vector.length_toList]
  flagDigits := by rw [length_hexChars, List.length_singleton]
  lowercase c hc := by
    simp only [List.mem_append] at hc
    rcases hc with (hc | hc) | hc <;> exact isHexChar_of_mem_hexChars hc

/-- `parseTraceparent` accepts exactly what `formatTraceparent` writes, and reads back the fields
that were written. -/
theorem parseTraceparent_iff_formatTraceparent :
    (∀ value traceId spanId flags, parseTraceparent value = .ok (traceId, spanId, flags) ↔
      value = formatTraceparent traceId spanId flags) ∧
    (∀ value, (parseTraceparent value).isOk ↔
      ∃ traceId spanId flags, value = formatTraceparent traceId spanId flags) ∧
    ∀ traceId spanId flags, ∃ traceIdHex spanIdHex flagsHex, TraceparentLayout
      (formatTraceparent traceId spanId flags) traceIdHex spanIdHex flagsHex := by
  have hiff : ∀ value traceId spanId flags,
      parseTraceparent value = .ok (traceId, spanId, flags) ↔
        value = formatTraceparent traceId spanId flags := by
    intro value traceId spanId flags
    refine ⟨eq_formatTraceparent_of_parseTraceparent, ?_⟩
    rintro rfl
    exact parseTraceparent_formatTraceparent traceId spanId flags
  refine ⟨hiff, fun value => ?_, fun traceId spanId flags =>
    ⟨_, _, _, traceparentLayout_formatTraceparent traceId spanId flags⟩⟩
  rw [isOk_iff, Prod.exists]
  refine exists_congr fun traceId => ?_
  rw [Prod.exists]
  exact exists_congr fun spanId => exists_congr fun flags => hiff value traceId spanId flags

/-! ## Baggage -/

/-- A member without its properties and the white space around it. -/
def memberBody (member : String) : String := trim ((split ';' member).headD "")

/-- A member is blank, or has a key that is not blank before its first `=`. -/
def WellFormedMember (member : String) : Prop :=
  memberBody member = "" ∨
    '=' ∈ (memberBody member).toList ∧ trim (splitn2 '=' (memberBody member)).1 ≠ ""

instance (member : String) : Decidable (WellFormedMember member) :=
  inferInstanceAs (Decidable (_ ∨ _))

/-- The key and the value of a member that is not blank. -/
def memberEntry (member : String) : Option (String × String) :=
  if memberBody member = "" then none
  else (splitn2 '=' (memberBody member)).2.map fun value =>
    (trim (splitn2 '=' (memberBody member)).1, trim value)

/-- All entries of a header, in order. -/
def headerEntries (value : String) : List (String × String) :=
  (split ',' value).filterMap memberEntry

theorem splitn2_of_not_mem {sep : Char} {s : String} (h : sep ∉ s.toList) :
    splitn2 sep s = (s, none) := by
  have hdrop : s.toList.dropWhile (· != sep) = [] := by
    refine List.dropWhile_eq_nil_iff.mpr fun c hc => ?_
    rw [bne_iff_ne]
    rintro rfl
    exact h hc
  unfold splitn2
  rw [hdrop]

theorem splitn2_snd_isSome {sep : Char} {s : String} (h : sep ∈ s.toList) :
    ∃ rest, (splitn2 sep s).2 = some rest := by
  unfold splitn2
  cases hdrop : s.toList.dropWhile (· != sep) with
  | nil =>
    have := List.dropWhile_eq_nil_iff.mp hdrop sep h
    rw [bne_self_eq_false] at this
    cases this
  | cons c rest => exact ⟨_, rfl⟩

theorem parseMember_of_wellFormed {member : String} (h : WellFormedMember member) :
    parseMember member = .ok (memberEntry member) := by
  have hbody : trim ((split ';' member).headD "") = memberBody member := rfl
  simp only [parseMember, hbody, String.isEmpty_iff]
  unfold memberEntry
  by_cases hblank : memberBody member = ""
  · rw [if_pos hblank, if_pos hblank]
  · obtain ⟨hequals, hkey⟩ := h.resolve_left hblank
    obtain ⟨value, hvalue⟩ := splitn2_snd_isSome hequals
    rw [if_neg hblank, if_neg hblank]
    cases hsplit : splitn2 '=' (memberBody member) with
    | mk key rest =>
      rw [hsplit] at hkey hvalue
      obtain rfl : rest = some value := hvalue
      exact if_neg hkey

theorem parseMember_of_not_wellFormed {member : String} (h : ¬WellFormedMember member) :
    parseMember member = .error .invalidTraceContext := by
  have hbody : trim ((split ';' member).headD "") = memberBody member := rfl
  simp only [parseMember, hbody, String.isEmpty_iff]
  obtain ⟨hblank, hkey⟩ := not_or.mp h
  rw [if_neg hblank]
  by_cases hequals : '=' ∈ (memberBody member).toList
  · obtain ⟨value, hvalue⟩ := splitn2_snd_isSome hequals
    cases hsplit : splitn2 '=' (memberBody member) with
    | mk key rest =>
      rw [hsplit] at hkey hvalue
      obtain rfl : rest = some value := hvalue
      exact if_pos (not_not.mp fun hne => hkey ⟨hequals, hne⟩)
  · rw [splitn2_of_not_mem hequals]

/-- The loop reads all members exactly where each is well formed and the map has room before the
last entry. -/
theorem parseMembers_eq_ok {members : List String} {baggage result : BTreeMap String String} :
    parseMembers members baggage = .ok result ↔
      (∀ member ∈ members, WellFormedMember member) ∧
      (∀ init last, members.filterMap memberEntry = init ++ [last] →
        (insertAll init baggage).size < maxBaggageEntries) ∧
      result = insertAll (members.filterMap memberEntry) baggage := by
  induction members generalizing baggage with
  | nil =>
    rw [parseMembers, Except.ok.injEq]
    constructor
    · rintro rfl
      exact ⟨List.forall_mem_nil _, fun init last h => absurd h (by simp), rfl⟩
    · exact fun h => h.2.2.symm
  | cons member members ih =>
    rw [parseMembers, List.forall_mem_cons]
    by_cases hwell : WellFormedMember member
    · rw [parseMember_of_wellFormed hwell, and_iff_right hwell]
      cases hentry : memberEntry member with
      | none =>
        rw [List.filterMap_cons_none hentry]
        exact ih
      | some entry =>
        rw [List.filterMap_cons_some hentry, insertAll_cons]
        obtain ⟨key, value⟩ := entry
        show (if maxBaggageEntries ≤ baggage.size then _ else _) = _ ↔ _
        by_cases hfull : maxBaggageEntries ≤ baggage.size
        · rw [if_pos hfull]
          refine iff_of_false (by rintro ⟨⟩) fun h => ?_
          have hne : (key, value) :: members.filterMap memberEntry ≠ [] := List.cons_ne_nil _ _
          have hroom := h.2.1 _ _ (List.dropLast_concat_getLast hne).symm
          have := size_le_insertAll ((key, value) :: members.filterMap memberEntry).dropLast baggage
          omega
        · rw [if_neg hfull, ih]
          refine and_congr_right fun _ => and_congr_left fun _ => ?_
          constructor
          · intro h init last hsplit
            cases init with
            | nil =>
              show baggage.size < maxBaggageEntries
              omega
            | cons first init =>
              obtain ⟨rfl, hrest⟩ := List.cons_eq_cons.mp hsplit
              exact h init last hrest
          · intro h init last hrest
            exact h ((key, value) :: init) last (by rw [hrest]; rfl)
    · rw [parseMember_of_not_wellFormed hwell]
      exact iff_of_false (by rintro ⟨⟩) fun h => hwell h.1.1

theorem parseBaggage_eq_parseMembers {value : String}
    (h : byteLen value ≤ maxBaggageEntries * maxBaggageMemberBytes) :
    parseBaggage value = parseMembers (split ',' value) ∅ := by
  unfold parseBaggage
  rw [if_neg (Nat.not_lt.mpr h)]
  by_cases hblank : (trim value).isEmpty
  · rw [if_pos hblank]
    have hspaces : ∀ c ∈ value.toList, isWhitespace c := by
      rw [String.isEmpty_iff, ← String.toList_inj, toList_trim] at hblank
      exact strip_eq_nil_iff.mp hblank
    have hnot : ∀ sep : Char, ¬isWhitespace sep → sep ∉ value.toList :=
      fun sep hsep hmem => hsep (hspaces sep hmem)
    have hbody : memberBody value = "" := by
      unfold memberBody
      rw [split_of_not_mem (hnot ';' (by decide)), List.headD_cons]
      exact String.isEmpty_iff.mp hblank
    have hentry : memberEntry value = none := if_pos hbody
    rw [split_of_not_mem (hnot ',' (by decide)), parseMembers,
      parseMember_of_wellFormed (.inl hbody), hentry]
    rfl
  · rw [if_neg hblank]

/-- The number of distinct keys of the entries. -/
def distinctKeys (entries : List (String × String)) : ℕ :=
  (distinct (entries.map Prod.fst)).length

theorem distinctKeys_concat (entries : List (String × String)) (entry : String × String) :
    distinctKeys (entries ++ [entry]) =
      if entry.1 ∈ entries.map Prod.fst then distinctKeys entries else distinctKeys entries + 1 := by
  unfold distinctKeys
  rw [← size_insertAll, ← size_insertAll, insertAll_concat, Std.ExtTreeMap.size_insert]
  exact if_congr mem_insertAll rfl rfl

/-- A header is accepted exactly where each member is well formed and the distinct keys fit, and
every key is mapped to its last value. -/
structure ReadsBaggage (value : String) : Prop where
  accepts : (parseBaggage value).isOk ↔
    (∀ member ∈ split ',' value, WellFormedMember member) ∧
      distinctKeys (headerEntries value) ≤ maxBaggageEntries
  values : ∀ baggage, parseBaggage value = .ok baggage →
    ∀ key, baggage[key]? = lastValue (headerEntries value) key

/-- The header has as many distinct keys as there may be, and its last entry repeats one. -/
structure RepeatsWhenFull (value : String) : Prop where
  wellFormed : ∀ member ∈ split ',' value, WellFormedMember member
  full : distinctKeys (headerEntries value) = maxBaggageEntries
  repeats : ∃ init last, headerEntries value = init ++ [last] ∧ last.1 ∈ init.map Prod.fst

theorem parseBaggage_eq_ok {value : String} {baggage : BTreeMap String String}
    (h : byteLen value ≤ maxBaggageEntries * maxBaggageMemberBytes) :
    parseBaggage value = .ok baggage ↔
      (∀ member ∈ split ',' value, WellFormedMember member) ∧
      (∀ init last, headerEntries value = init ++ [last] → distinctKeys init < maxBaggageEntries) ∧
      baggage = insertAll (headerEntries value) ∅ := by
  rw [parseBaggage_eq_parseMembers h, parseMembers_eq_ok]
  simp only [size_insertAll]
  rfl

/-- A header within the length gate is read as it should be exactly where its last entry does not
repeat a key in a full map: the guard on the number of entries comes before the insertion, also
where the insertion replaces a value. -/
theorem readsBaggage_iff_not_repeatsWhenFull (value : String)
    (h : byteLen value ≤ maxBaggageEntries * maxBaggageMemberBytes) :
    ReadsBaggage value ↔ ¬RepeatsWhenFull value := by
  have haccepts : (parseBaggage value).isOk ↔
      (∀ member ∈ split ',' value, WellFormedMember member) ∧
      ∀ init last, headerEntries value = init ++ [last] →
        distinctKeys init < maxBaggageEntries := by
    rw [isOk_iff]
    simp only [parseBaggage_eq_ok h, exists_and_left, exists_eq, and_true]
  constructor
  · rintro hreads ⟨hwell, hfull, init, last, hsplit, hrepeats⟩
    have hroom := (haccepts.mp (hreads.accepts.mpr ⟨hwell, hfull.le⟩)).2 init last hsplit
    rw [hsplit, distinctKeys_concat, if_pos hrepeats] at hfull
    omega
  · refine fun hrepeats => ⟨?_, fun baggage hbaggage key => ?_⟩
    · rw [haccepts]
      refine and_congr_right fun hwell => ⟨fun hroom => ?_, fun hfits init last hsplit => ?_⟩
      · rcases List.eq_nil_or_concat (headerEntries value) with hnil | ⟨init, last, hsplit⟩
        · rw [hnil]
          exact Nat.zero_le _
        · rw [List.concat_eq_append] at hsplit
          have := hroom init last hsplit
          rw [hsplit, distinctKeys_concat]
          split_ifs <;> omega
      · have hsame : last.1 ∈ init.map Prod.fst → distinctKeys init ≠ maxBaggageEntries := by
          intro hmem hfull
          refine hrepeats ⟨hwell, ?_, init, last, hsplit, hmem⟩
          rw [hsplit, distinctKeys_concat, if_pos hmem, hfull]
        rw [hsplit, distinctKeys_concat] at hfits
        split_ifs at hfits with hmem
        · have := hsame hmem
          omega
        · omega
    · obtain ⟨-, -, rfl⟩ := (parseBaggage_eq_ok h).mp hbaggage
      exact getElem?_insertAll _ key

example : WellFormedMember " key=value;p=1" ∧ ¬WellFormedMember "key" := by decide +kernel

/-- A key that is repeated while there is room. -/
theorem readsBaggage_repeated : ReadsBaggage "k=first,k=second;p=1" := by
  refine (readsBaggage_iff_not_repeatsWhenFull _ (by decide +kernel)).mpr fun h => ?_
  exact absurd h.full (by decide +kernel)

/-- Sixteen keys, and then the first again. -/
def fullHeader : String :=
  "a=1,b=1,c=1,d=1,e=1,f=1,g=1,h=1,i=1,j=1,k=1,l=1,m=1,n=1,o=1,p=1,a=2"

/-- A header with sixteen distinct keys is refused where its last entry repeats the first key. -/
theorem fullHeader_refused : byteLen fullHeader ≤ maxBaggageEntries * maxBaggageMemberBytes ∧
    parseBaggage fullHeader = .error .limitExceeded ∧ ¬ReadsBaggage fullHeader := by
  have hrefused : parseBaggage fullHeader = .error .limitExceeded := by decide +kernel
  refine ⟨by decide +kernel, hrefused, fun h => ?_⟩
  have hok : (parseBaggage fullHeader).isOk := h.accepts.mpr (by decide +kernel)
  rw [hrefused] at hok
  cases hok

end RustFactory.Observability
