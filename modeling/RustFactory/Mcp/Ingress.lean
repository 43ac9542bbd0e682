import RustFactory.Mcp.Stdio

/-!
# MCP: ingress does not depend on the reads

However the bytes arrive, the transport delivers the messages of the whole stream and closes right
after the last of them, if the line decoder has a result for every line.  The decoder looks at
incomplete lines, too: what it then rejects can no longer become a line within the limit, and what it
keeps waiting for still can.
-/

namespace RustFactory.Mcp

open Lib

/-! ## Lines and payloads -/

theorem length_stripCr_le (buf : Bytes) : (stripCr buf).length ≤ buf.length := by
  unfold stripCr
  split_ifs
  · rw [List.length_dropLast]
    omega
  · exact le_rfl

theorem le_length_stripCr (buf : Bytes) : buf.length ≤ (stripCr buf).length + 1 := by
  unfold stripCr
  split_ifs
  · rw [List.length_dropLast]
    omega
  · omega

theorem length_le_of_not_oversized {line : Bytes} (h : ¬payloadIsOversized line) :
    line.length ≤ maxMcpStdioCodecBytes := by
  have hstrip := le_length_stripCr line
  unfold payloadIsOversized at h
  unfold maxMcpStdioCodecBytes
  rw [decide_eq_true_eq] at h
  omega

theorem not_partialIsOversized_iff {buf : Bytes} :
    ¬partialIsOversized buf ↔ buf.length ≤ maxMcpStdioFrameBytes ∨
      buf.length = maxMcpStdioCodecBytes ∧ buf.getLast? = some 13 := by
  unfold partialIsOversized
  rw [Bool.and_eq_true, decide_eq_true_eq, Bool.not_eq_true', Bool.and_eq_false_iff, not_and_or,
    not_or, beq_eq_false_iff_ne, beq_eq_false_iff_ne, not_not, not_not, not_lt]

/-- What may still become a line within the limit is itself within the limit. -/
theorem not_oversized_of_unfinished {buf : Bytes} (h : ¬partialIsOversized buf) :
    ¬payloadIsOversized buf := by
  unfold payloadIsOversized
  rw [decide_eq_true_eq, not_lt]
  rcases not_partialIsOversized_iff.mp h with hlen | ⟨hlen, hlast⟩
  · exact (length_stripCr_le buf).trans hlen
  · unfold stripCr
    unfold maxMcpStdioCodecBytes at hlen
    rw [if_pos hlast, List.length_dropLast]
    omega

/-- What is rejected before its line end arrives is the start of lines over the limit only. -/
theorem oversized_of_unfinished {buf : Bytes} (h : partialIsOversized buf) (more : Bytes) :
    payloadIsOversized (buf ++ more) := by
  unfold payloadIsOversized
  rw [decide_eq_true_eq]
  have hbuf : ¬¬partialIsOversized buf := not_not_intro h
  rw [not_partialIsOversized_iff, not_or, not_and_or] at hbuf
  have hcodec : maxMcpStdioCodecBytes = maxMcpStdioFrameBytes + 1 := rfl
  have hstrip := le_length_stripCr (buf ++ more)
  rw [List.length_append] at hstrip
  by_cases hlong : maxMcpStdioFrameBytes + 1 < buf.length + more.length
  · omega
  · -- the buffer is one byte over the limit, does not end in CR, and nothing follows
    have hmore : more = [] := List.length_eq_zero_iff.mp (by omega)
    have hlast : buf.getLast? ≠ some 13 := hbuf.2.resolve_left (by omega)
    subst hmore
    unfold stripCr
    rw [List.append_nil, if_neg hlast]
    omega

section Reference

variable {μ : Type} {parse : Bytes → Option (Except Category μ)}

/-- The messages of the lines between the line ends. -/
def deliverFrom (parse : Bytes → Option (Except Category μ)) (stream : Bytes) : List μ :=
  deliver parse (stream.splitOn 10)

/-- The lines between the line ends have results. -/
def AnsweredFrom (parse : Bytes → Option (Except Category μ)) (stream : Bytes) : Prop :=
  ∀ line ∈ stream.splitOn 10, ¬payloadIsOversized line → (parse (stripCr line)).isSome

theorem deliver_cons (line : Bytes) (lines : List Bytes) :
    deliver parse (line :: lines) =
      if payloadIsOversized line then []
      else
        match parse (stripCr line) with
        | some (.ok message) => message :: deliver parse lines
        | some (.error category) => if category.isSkipped then deliver parse lines else []
        | none => deliver parse lines := rfl

theorem deliver_concat_nil (h : parse [] = some (.error .eof)) (lines : List Bytes) :
    deliver parse (lines ++ [[]]) = deliver parse lines := by
  induction lines with
  | nil =>
    have hstrip : stripCr [] = [] := rfl
    rw [List.nil_append, deliver_cons, hstrip, h]
    rfl
  | cons line lines ih => rw [List.cons_append, deliver_cons, deliver_cons, ih]

theorem reference_eq (h : parse [] = some (.error .eof)) (stream : Bytes) :
    reference parse stream = deliverFrom parse stream := by
  unfold reference streamLines deliverFrom
  dsimp only
  by_cases hlast : (stream.splitOn 10).getLast? = some []
  · rw [if_pos hlast, ← deliver_concat_nil h, List.dropLast_append_getLast? _ hlast]
  · rw [if_neg hlast]

theorem answeredFrom_of_answered (h : parse [] = some (.error .eof)) {stream : Bytes}
    (hanswered : Answered parse stream) : AnsweredFrom parse stream := by
  intro line hline hlimit
  unfold Answered streamLines at hanswered
  dsimp only at hanswered
  by_cases hlast : (stream.splitOn 10).getLast? = some []
  · rw [if_pos hlast] at hanswered
    rw [← List.dropLast_append_getLast? _ hlast, List.mem_append, List.mem_singleton] at hline
    rcases hline with hline | rfl
    · exact hanswered line hline hlimit
    · have hstrip : stripCr [] = [] := rfl
      rw [hstrip, h]
      rfl
  · rw [if_neg hlast] at hanswered
    exact hanswered line hline hlimit

theorem answeredFrom_line {line : Bytes} (h : 10 ∉ line) {rest : Bytes}
    (hanswered : AnsweredFrom parse (line ++ 10 :: rest)) :
    (¬payloadIsOversized line → ∃ result, parse (stripCr line) = some result) ∧
      AnsweredFrom parse rest := by
  unfold AnsweredFrom at hanswered
  rw [List.splitOn_append_cons_self, List.splitOn_eq_singleton h, List.singleton_append,
    List.forall_mem_cons] at hanswered
  exact ⟨fun hlimit => Option.isSome_iff_exists.mp (hanswered.1 hlimit), hanswered.2⟩

theorem answeredFrom_last {line : Bytes} (h : 10 ∉ line) (hanswered : AnsweredFrom parse line)
    (hlimit : ¬payloadIsOversized line) : ∃ result, parse (stripCr line) = some result := by
  unfold AnsweredFrom at hanswered
  rw [List.splitOn_eq_singleton h, List.forall_mem_singleton] at hanswered
  exact Option.isSome_iff_exists.mp (hanswered hlimit)

theorem deliverFrom_line {line : Bytes} (h : 10 ∉ line) (rest : Bytes) :
    deliverFrom parse (line ++ 10 :: rest) =
      if payloadIsOversized line then []
      else
        match parse (stripCr line) with
        | some (.ok message) => message :: deliverFrom parse rest
        | some (.error category) => if category.isSkipped then deliverFrom parse rest else []
        | none => deliverFrom parse rest := by
  unfold deliverFrom
  rw [List.splitOn_append_cons_self, List.splitOn_eq_singleton h, List.singleton_append,
    deliver_cons]

theorem deliverFrom_last {line : Bytes} (h : 10 ∉ line) :
    deliverFrom parse line =
      if payloadIsOversized line then []
      else
        match parse (stripCr line) with
        | some (.ok message) => [message]
        | _ => [] := by
  unfold deliverFrom
  rw [List.splitOn_eq_singleton h, deliver_cons]
  cases parse (stripCr line) with
  | none => rfl
  | some result =>
    cases result with
    | ok message => rfl
    | error category => simp only [deliver, ite_self]

theorem deliverFrom_partial {buf : Bytes} (h : 10 ∉ buf) (hover : partialIsOversized buf)
    (more : Bytes) : deliverFrom parse (buf ++ more) = [] := by
  by_cases hmem : 10 ∈ more
  · obtain ⟨a, b, rfl, ha⟩ := List.eq_append_cons_of_mem hmem
    have hline : 10 ∉ buf ++ a := by
      rw [List.mem_append, not_or]
      exact ⟨h, ha⟩
    rw [← List.append_assoc, deliverFrom_line hline, if_pos (oversized_of_unfinished hover a)]
  · have hline : 10 ∉ buf ++ more := by
      rw [List.mem_append, not_or]
      exact ⟨h, hmem⟩
    rw [deliverFrom_last hline, if_pos (oversized_of_unfinished hover more)]

end Reference

/-! ## The decoder -/

section Decoding

variable {σ μ : Type} {inner : Decoder σ μ} {initial : σ}
  {parse : Bytes → Option (Except Category μ)} {Ready : σ → Bytes → Prop}

/-- What a decoder may make of a buffer before the bytes `more`, where the given messages are to come:
a message and the bytes after its line, the wish for more bytes, or an error where nothing is to
come. -/
inductive Decodes (parse : Bytes → Option (Except Category μ)) (Ready : σ → Bytes → Prop)
    (more : Bytes) : List μ → Decoded σ μ → Prop
  | message {message : μ} {state : σ} {rest : Bytes} : Ready state rest →
      AnsweredFrom parse (rest ++ more) →
      Decodes parse Ready more (message :: deliverFrom parse (rest ++ more))
        ⟨.ok (some message), state, rest⟩
  | pending {state : σ} {rest : Bytes} : Ready state rest → AnsweredFrom parse (rest ++ more) →
      10 ∉ rest → ¬partialIsOversized rest →
      Decodes parse Ready more (deliverFrom parse (rest ++ more)) ⟨.ok none, state, rest⟩
  | failure {e : CodecError} {state : σ} {rest : Bytes} :
      Decodes parse Ready more [] ⟨.error e, state, rest⟩

theorem findIdx?_newline {line : Bytes} (h : 10 ∉ line) (rest : Bytes) :
    (line ++ 10 :: rest).findIdx? (· == 10) = some line.length := by
  have hnone : line.findIdx? (· == 10) = none := by
    rw [List.findIdx?_eq_none_iff]
    intro byte hbyte
    exact beq_eq_false_iff_ne.mpr fun heq => h (heq ▸ hbyte)
  rw [List.findIdx?_append, hnone, List.findIdx?_cons, if_pos (by rfl), Option.none_or,
    Option.map_some, Nat.zero_add]

theorem boundedDecode_spec (h : LineDecoder inner initial parse Ready) {fuel : ℕ} {state : σ}
    {buf more : Bytes} (hfuel : buf.length < fuel) (hready : Ready state buf)
    (hanswered : AnsweredFrom parse (buf ++ more)) :
    Decodes parse Ready more (deliverFrom parse (buf ++ more))
      (boundedDecode inner fuel state buf) := by
  induction fuel generalizing state buf with
  | zero => exact absurd hfuel (Nat.not_lt_zero _)
  | succ fuel ih =>
    unfold boundedDecode
    by_cases hmem : 10 ∈ buf
    · obtain ⟨line, rest, rfl, hline⟩ := List.eq_append_cons_of_mem hmem
      rw [List.append_assoc, List.cons_append] at hanswered ⊢
      obtain ⟨hresult, hrest⟩ := answeredFrom_line hline hanswered
      rw [deliverFrom_line hline]
      simp only [findIdx?_newline hline, List.take_left']
      by_cases hover : payloadIsOversized line
      · rw [if_pos hover, if_pos hover]
        exact .failure
      · rw [if_neg hover, if_neg hover]
        obtain ⟨result, hparse⟩ := hresult hover
        obtain ⟨state', hdecode, hready'⟩ :=
          h.decode_line hline (length_le_of_not_oversized hover) hparse hready
        rw [hdecode, hparse]
        cases result with
        | ok message => exact .message hready' hrest
        | error category =>
          by_cases hskipped : category.isSkipped
          · simp only [lineResult, if_pos hskipped]
            refine ih ?_ hready' hrest
            rw [List.length_append, List.length_cons] at hfuel
            omega
          · simp only [lineResult, if_neg hskipped]
            exact .failure
    · have hnone : buf.findIdx? (· == 10) = none := by
        rw [List.findIdx?_eq_none_iff]
        intro byte hbyte
        exact beq_eq_false_iff_ne.mpr fun heq => hmem (heq ▸ hbyte)
      simp only [hnone]
      by_cases hover : partialIsOversized buf
      · rw [if_pos hover, deliverFrom_partial hmem hover]
        exact .failure
      · rw [if_neg hover]
        have hlen := length_le_of_not_oversized (not_oversized_of_unfinished hover)
        obtain ⟨state', hdecode, hready'⟩ := h.decode_incomplete hmem hlen hready
        rw [hdecode]
        exact .pending hready' hanswered hmem hover

theorem decode_spec (h : LineDecoder inner initial parse Ready) {state : σ} {buf more : Bytes}
    (hready : Ready state buf) (hanswered : AnsweredFrom parse (buf ++ more)) :
    Decodes parse Ready more (deliverFrom parse (buf ++ more)) ((bounded inner).decode state buf) :=
  boundedDecode_spec h (Nat.lt_succ_self _) hready hanswered

/-- What the decoder makes of the last bytes, where the given messages are to come: the message of
their line, the wish for more bytes, or an error. -/
inductive DecodesLast (Ready : σ → Bytes → Prop) : List μ → Decoded σ μ → Prop
  | message {message : μ} {state : σ} : Ready state [] →
      DecodesLast Ready [message] ⟨.ok (some message), state, []⟩
  | done {state : σ} {rest : Bytes} : DecodesLast Ready [] ⟨.ok none, state, rest⟩
  | failure {e : CodecError} {state : σ} {rest : Bytes} :
      DecodesLast Ready [] ⟨.error e, state, rest⟩

theorem decodeEof_spec (h : LineDecoder inner initial parse Ready) {state : σ} {buf : Bytes}
    (hready : Ready state buf) (hanswered : AnsweredFrom parse buf) (hline : 10 ∉ buf)
    (hlimit : ¬partialIsOversized buf) :
    DecodesLast Ready (deliverFrom parse buf) ((bounded inner).decodeEof state buf) := by
  have hover := not_oversized_of_unfinished hlimit
  rw [deliverFrom_last hline, if_neg hover]
  change DecodesLast Ready _ (if payloadIsOversized buf then _ else _)
  rw [if_neg hover]
  by_cases hblank : stripCr buf = []
  · obtain ⟨state', hdecode⟩ := h.decodeEof_blank hblank hready
    rw [hdecode, hblank, h.parse_nil]
    exact .done
  · obtain ⟨result, hparse⟩ := answeredFrom_last hline hanswered hover
    obtain ⟨state', hdecode, hready'⟩ :=
      h.decodeEof_last hline (length_le_of_not_oversized hover) hblank hparse hready
    rw [hdecode, hparse]
    cases result with
    | ok message => exact .message hready'
    | error category =>
      by_cases hskipped : category.isSkipped
      · simp only [lineResult, if_pos hskipped]
        exact .done
      · simp only [lineResult, if_neg hskipped]
        exact .failure

end Decoding

/-! ## The reader -/

/-- The bytes of all reads. -/
def streamOf (reads : List Read) : Bytes := (reads.map Subtype.val).flatten

theorem streamOf_cons (read : Read) (reads : List Read) :
    streamOf (read :: reads) = read.1 ++ streamOf reads := rfl

section Reading

variable {ρ σ μ : Type} {inner : Decoder σ μ} {initial : σ}
  {parse : Bytes → Option (Except Category μ)} {Ready : σ → Bytes → Prop}

/-- At this place the given messages are to come: those of the buffer and of the reads that are left.
A reader that reads has used up the complete lines of its buffer. -/
inductive Awaits (parse : Bytes → Option (Except Category μ)) (Ready : σ → Bytes → Prop) :
    Place σ → List μ → Prop
  | reading {state : σ} {buffer : Bytes} {reads : List Read} : Ready state buffer →
      AnsweredFrom parse (buffer ++ streamOf reads) → 10 ∉ buffer → ¬partialIsOversized buffer →
      Awaits parse Ready (.reading state buffer reads)
        (deliverFrom parse (buffer ++ streamOf reads))
  | framing {state : σ} {buffer : Bytes} {reads : List Read} : Ready state buffer →
      AnsweredFrom parse (buffer ++ streamOf reads) →
      Awaits parse Ready (.framing state buffer reads)
        (deliverFrom parse (buffer ++ streamOf reads))
  | pausing {state : σ} {buffer : Bytes} : Ready state buffer → AnsweredFrom parse buffer →
      10 ∉ buffer → ¬partialIsOversized buffer →
      Awaits parse Ready (.pausing state buffer) (deliverFrom parse buffer)
  | errored : Awaits parse Ready .errored []

theorem Awaits.ne_ended {place : Place σ} {messages : List μ}
    (h : Awaits parse Ready place messages) : place ≠ .ended := by
  cases h with
  | reading | framing | pausing | errored => rintro ⟨⟩

/-- What is yielded where the given messages are to come: the first of them, and if there is none the
end or an error. -/
inductive Yields (parse : Bytes → Option (Except Category μ)) (Ready : σ → Bytes → Prop) :
    List μ → Option (Except CodecError μ) → Place σ → Prop
  | message {message : μ} {messages : List μ} {place : Place σ} :
      Awaits parse Ready place messages →
      Yields parse Ready (message :: messages) (some (.ok message)) place
  | failure {e : CodecError} : Yields parse Ready [] (some (.error e)) .errored
  | done {place : Place σ} : Yields parse Ready [] none place

theorem awaits_drained (h : LineDecoder inner initial parse Ready) {state : σ}
    (hready : Ready state []) : Awaits parse Ready (.pausing state []) [] := by
  have hanswered : AnsweredFrom parse [] := by
    intro line hline _
    rw [List.splitOn_eq_singleton List.not_mem_nil, List.mem_singleton] at hline
    have hstrip : stripCr [] = [] := rfl
    rw [hline, hstrip, h.parse_nil]
    rfl
  have hdeliver : deliverFrom parse [] = [] := by
    have hstrip : stripCr [] = [] := rfl
    rw [deliverFrom_last List.not_mem_nil, hstrip, h.parse_nil]
    rfl
  have hawaits := Awaits.pausing hready hanswered List.not_mem_nil Bool.false_ne_true
  rwa [hdeliver] at hawaits

/-- One step of the reader. -/
theorem next_spec (h : LineDecoder inner initial parse Ready) {place place' : Place σ}
    {frame : Option (Except CodecError μ)} (hnext : Next (bounded inner) place frame place')
    {messages : List μ} (hawaits : Awaits parse Ready place messages) :
    Yields parse Ready messages frame place' := by
  induction hnext generalizing messages with
  | @read state buffer read reads frame place _ ih =>
    cases hawaits with
    | reading hready hanswered hline hlimit =>
      rw [streamOf_cons, ← List.append_assoc] at hanswered ⊢
      exact ih (.framing (h.ready_append read.1 hready) hanswered)
  | @eof state buffer frame place _ ih =>
    cases hawaits with
    | reading hready hanswered hline hlimit =>
      have hend : buffer ++ streamOf [] = buffer := List.append_nil buffer
      rw [hend] at hanswered ⊢
      exact ih (.pausing hready hanswered hline hlimit)
  | @message state state' buffer rest reads message hdecode =>
    cases hawaits with
    | framing hready hanswered =>
      have hdecodes := decode_spec h hready hanswered
      rw [hdecode] at hdecodes
      generalize deliverFrom parse (buffer ++ streamOf reads) = messages at hdecodes
      cases hdecodes with
      | message hready' hanswered' => exact .message (.framing hready' hanswered')
  | @pending state state' buffer rest reads frame place hdecode _ ih =>
    cases hawaits with
    | framing hready hanswered =>
      have hdecodes := decode_spec h hready hanswered
      rw [hdecode] at hdecodes
      generalize deliverFrom parse (buffer ++ streamOf reads) = messages at hdecodes
      cases hdecodes with
      | pending hready' hanswered' hline hlimit => exact ih (.reading hready' hanswered' hline hlimit)
  | @failure state state' buffer rest reads e hdecode =>
    cases hawaits with
    | framing hready hanswered =>
      have hdecodes := decode_spec h hready hanswered
      rw [hdecode] at hdecodes
      generalize deliverFrom parse (buffer ++ streamOf reads) = messages at hdecodes
      cases hdecodes with
      | failure => exact .failure
  | @lastMessage state state' buffer rest message hdecode =>
    cases hawaits with
    | pausing hready hanswered hline hlimit =>
      have hdecodes := decodeEof_spec h hready hanswered hline hlimit
      rw [hdecode] at hdecodes
      generalize deliverFrom parse buffer = messages at hdecodes
      cases hdecodes with
      | message hready' => exact .message (awaits_drained h hready')
  | @lastDone state state' buffer rest hdecode =>
    cases hawaits with
    | pausing hready hanswered hline hlimit =>
      have hdecodes := decodeEof_spec h hready hanswered hline hlimit
      rw [hdecode] at hdecodes
      generalize deliverFrom parse buffer = messages at hdecodes
      cases hdecodes with
      | done => exact .done
  | @lastFailure state state' buffer rest e hdecode =>
    cases hawaits with
    | pausing hready hanswered hline hlimit =>
      have hdecodes := decodeEof_spec h hready hanswered hline hlimit
      rw [hdecode] at hdecodes
      generalize deliverFrom parse buffer = messages at hdecodes
      cases hdecodes with
      | failure => exact .failure
  | errored =>
    cases hawaits with
    | errored => exact .done

/-! ## The transport -/

variable {source : List Read → ρ} {next : ρ → Option (Except CodecError μ) × ρ}
  {At : ρ → Place σ → Prop}

/-- The transport will deliver the given messages and then close. -/
structure Delivers (parse : Bytes → Option (Except Category μ)) (Ready : σ → Bytes → Prop)
    (At : ρ → Place σ → Prop) (transport : Transport ρ) (messages : List μ) : Prop where
  isOpen : transport.closed = false
  awaits : ∃ place, At transport.reader place ∧ Awaits parse Ready place messages

/-- The reader yields the first message, or the end or an error if there is none. -/
theorem reader_spec (h : LineDecoder inner initial parse Ready)
    (hreader : FramedReader (bounded inner) initial source next At) {reader : ρ} {place : Place σ}
    {messages : List μ} (hat : At reader place) (hawaits : Awaits parse Ready place messages) :
    ∃ place', At (next reader).2 place' ∧ Yields parse Ready messages (next reader).1 place' := by
  obtain ⟨place', hnext, hat'⟩ := hreader.at_next hat hawaits.ne_ended
  exact ⟨place', hat', next_spec h hnext hawaits⟩

theorem send_reader (transport : Transport ρ) (message : String) :
    (transport.send message).2.reader = transport.reader := by
  unfold Transport.send
  split
  · rfl
  · split_ifs
    · rfl
    · rfl

theorem receiveLoop_of_errored {codec : Decoder σ μ}
    (hreader : FramedReader codec initial source next At) {transport : Transport ρ}
    (h : At transport.reader .errored) :
    (transport.receiveLoop next 1).1 = none ∧ (transport.receiveLoop next 1).2.closed = true := by
  obtain ⟨place, hnext, -⟩ := hreader.at_next h (by rintro ⟨⟩)
  unfold Transport.receiveLoop
  generalize next transport.reader = result at hnext
  obtain ⟨frame, reader⟩ := result
  dsimp only at hnext
  cases hnext with
  | errored => exact ⟨rfl, rfl⟩

/-- One call delivers the first message, or closes the transport if there is none. -/
theorem receive_spec (h : LineDecoder inner initial parse Ready)
    (hreader : FramedReader (bounded inner) initial source next At) {transport : Transport ρ}
    {messages : List μ} (hdelivers : Delivers parse Ready At transport messages) :
    (messages = [] → (transport.receive next).1 = none ∧
      (transport.receive next).2.closed = true) ∧
    ∀ message rest, messages = message :: rest → (transport.receive next).1 = some message ∧
      Delivers parse Ready At (transport.receive next).2 rest := by
  obtain ⟨hopen, place, hat, hawaits⟩ := hdelivers
  obtain ⟨place', hat', hyields⟩ := reader_spec h hreader hat hawaits
  unfold Transport.receive
  rw [if_neg (by rw [hopen]; exact Bool.false_ne_true)]
  unfold Transport.receiveLoop
  generalize next transport.reader = result at hat' hyields
  obtain ⟨frame, reader⟩ := result
  dsimp only at hat' hyields
  cases hyields with
  | message hawaits' =>
    refine ⟨by rintro ⟨⟩, fun message rest heq => ?_⟩
    cases heq
    exact ⟨rfl, hopen, place', hat', hawaits'⟩
  | done => exact ⟨fun _ => ⟨rfl, rfl⟩, by rintro _ _ ⟨⟩⟩
  | @failure e =>
    refine ⟨fun _ => ?_, by rintro _ _ ⟨⟩⟩
    cases e with
    | maxLineLengthExceeded => exact ⟨rfl, rfl⟩
    | io => exact ⟨rfl, rfl⟩
    | serde category =>
      dsimp only
      split_ifs
      · exact receiveLoop_of_errored hreader hat'
      · have hsame := send_reader { transport with reader := reader } "Invalid request"
        cases hsend : Transport.send { transport with reader := reader } "Invalid request" with
        | mk sent after =>
          rw [hsend] at hsame
          cases sent with
          | true =>
            have herrored : At after.reader .errored := by
              rw [hsame]
              exact hat'
            exact receiveLoop_of_errored hreader herrored
          | false => exact ⟨rfl, rfl⟩

theorem receives_of_closed {transport : Transport ρ} (h : transport.closed = true) (n : ℕ) :
    transport.receives next n = (List.replicate n none, transport) := by
  induction n with
  | zero => rfl
  | succ n ih =>
    have hreceive : transport.receive next = (none, transport) := if_pos h
    unfold Transport.receives
    simp only [hreceive, ih]
    rfl

theorem receives_succ (next : ρ → Option (Except CodecError μ) × ρ) (transport : Transport ρ)
    (n : ℕ) :
    transport.receives next (n + 1) =
      ((transport.receive next).1 :: ((transport.receive next).2.receives next n).1,
        ((transport.receive next).2.receives next n).2) := rfl

/-- Any number of calls. -/
theorem receives_spec (h : LineDecoder inner initial parse Ready)
    (hreader : FramedReader (bounded inner) initial source next At) {transport : Transport ρ}
    {messages : List μ} (hdelivers : Delivers parse Ready At transport messages) (n : ℕ) :
    (transport.receives next n).1 = (List.range n).map (fun i => messages[i]?) ∧
      ((transport.receives next n).2.closed = true ↔ messages.length < n) := by
  induction n generalizing transport messages with
  | zero =>
    have hnone : transport.receives next 0 = ([], transport) := rfl
    rw [hnone, hdelivers.isOpen]
    exact ⟨rfl, iff_of_false Bool.false_ne_true (Nat.not_lt_zero _)⟩
  | succ n ih =>
    obtain ⟨hnone, hsome⟩ := receive_spec h hreader hdelivers
    rw [receives_succ, List.range_succ_eq_map, List.map_cons, List.map_map]
    cases messages with
    | nil =>
      obtain ⟨hanswer, hclosed⟩ := hnone rfl
      rw [hanswer, receives_of_closed hclosed]
      refine ⟨congrArg (none :: ·) ?_, iff_of_true hclosed (Nat.succ_pos n)⟩
      exact (List.eq_replicate_iff.mpr ⟨by simp, by simp⟩).symm
    | cons message messages =>
      obtain ⟨hanswer, hnext⟩ := hsome message messages rfl
      obtain ⟨hanswers, hclosed⟩ := ih hnext
      rw [hanswer, hanswers, hclosed, List.length_cons]
      exact ⟨rfl, Nat.succ_lt_succ_iff.symm⟩

theorem delivers_new (h : LineDecoder inner initial parse Ready)
    (hreader : FramedReader (bounded inner) initial source next At) {reads : List Read}
    (hanswered : Answered parse (streamOf reads)) (writer : Writer) :
    Delivers parse Ready At (Transport.new (source reads) writer)
      (reference parse (streamOf reads)) := by
  refine ⟨rfl, _, hreader.at_source reads, ?_⟩
  rw [reference_eq h.parse_nil]
  exact .reading h.ready_initial (answeredFrom_of_answered h.parse_nil hanswered)
    List.not_mem_nil Bool.false_ne_true

end Reading

/-- **Ingress does not depend on the reads.**  Calls of `receive` yield the messages of the whole
stream one by one and then nothing more, and the transport closes with the first call after the last
message; so two ways of cutting one stream into reads cannot be told apart. -/
theorem receives_eq_reference {ρ σ μ : Type} {inner : Decoder σ μ} {initial : σ}
    {parse : Bytes → Option (Except Category μ)} {Ready : σ → Bytes → Prop}
    {source : List Read → ρ} {next : ρ → Option (Except CodecError μ) × ρ}
    {At : ρ → Place σ → Prop} (h : LineDecoder inner initial parse Ready)
    (hreader : FramedReader (bounded inner) initial source next At) (reads : List Read)
    (hanswered : Answered parse (streamOf reads)) (writer : Writer) (n : ℕ) :
    (((Transport.new (source reads) writer).receives next n).1 =
        (List.range n).map fun i => (reference parse (streamOf reads))[i]?) ∧
      (((Transport.new (source reads) writer).receives next n).2.closed = true ↔
        (reference parse (streamOf reads)).length < n) ∧
      ∀ reads' writer', streamOf reads' = streamOf reads →
        ((Transport.new (source reads') writer').receives next n).1 =
          ((Transport.new (source reads) writer).receives next n).1 ∧
        ((Transport.new (source reads') writer').receives next n).2.closed =
          ((Transport.new (source reads) writer).receives next n).2.closed := by
  obtain ⟨hresults, hclosed⟩ := receives_spec h hreader (delivers_new h hreader hanswered writer) n
  refine ⟨hresults, hclosed, fun reads' writer' hstream => ?_⟩
  have hanswered' : Answered parse (streamOf reads') := by
    rw [hstream]
    exact hanswered
  obtain ⟨hresults', hclosed'⟩ :=
    receives_spec h hreader (delivers_new h hreader hanswered' writer') n
  rw [hstream] at hresults' hclosed'
  exact ⟨hresults'.trans hresults.symm, Bool.eq_iff_iff.mpr (hclosed'.trans hclosed.symm)⟩

/-! ## Sample -/

section Sample

variable {σ μ : Type}

/-- What is decoded at the end of the input. -/
def pausingNext (codec : Decoder σ μ) (state : σ) (buffer : Bytes) :
    Option (Except CodecError μ) × Place σ :=
  match codec.decodeEof state buffer with
  | ⟨.ok (some message), state', rest⟩ => (some (.ok message), .pausing state' rest)
  | ⟨.ok none, _, _⟩ => (none, .ended)
  | ⟨.error e, _, _⟩ => (some (.error e), .errored)

/-- What is decoded from the buffer, and from more bytes if these are wanted. -/
def framingNext (codec : Decoder σ μ) (state : σ) (buffer : Bytes) (reads : List Read)
    (more : σ → Bytes → Option (Except CodecError μ) × Place σ) :
    Option (Except CodecError μ) × Place σ :=
  match codec.decode state buffer with
  | ⟨.ok (some message), state', rest⟩ => (some (.ok message), .framing state' rest reads)
  | ⟨.ok none, state', rest⟩ => more state' rest
  | ⟨.error e, _, _⟩ => (some (.error e), .errored)

/-- What is decoded from the buffer once one of the reads has filled it. -/
def readingNext (codec : Decoder σ μ) :
    List Read → σ → Bytes → Option (Except CodecError μ) × Place σ
  | [], state, buffer => pausingNext codec state buffer
  | read :: reads, state, buffer =>
    framingNext codec state (buffer ++ read.1) reads (readingNext codec reads)

/-- The reader whose states are the places themselves. -/
def Place.next (codec : Decoder σ μ) : Place σ → Option (Except CodecError μ) × Place σ
  | .reading state buffer reads => readingNext codec reads state buffer
  | .framing state buffer reads => framingNext codec state buffer reads (readingNext codec reads)
  | .pausing state buffer => pausingNext codec state buffer
  | .errored | .ended => (none, .ended)

theorem next_pausing (codec : Decoder σ μ) (state : σ) (buffer : Bytes) :
    Next codec (.pausing state buffer) (pausingNext codec state buffer).1
      (pausingNext codec state buffer).2 := by
  unfold pausingNext
  cases hdecode : codec.decodeEof state buffer with
  | mk result state' rest =>
    cases result with
    | error e => exact .lastFailure hdecode
    | ok message =>
      cases message with
      | none => exact .lastDone hdecode
      | some message => exact .lastMessage hdecode

theorem next_framing {codec : Decoder σ μ} {reads : List Read}
    {more : σ → Bytes → Option (Except CodecError μ) × Place σ}
    (h : ∀ state buffer, Next codec (.reading state buffer reads) (more state buffer).1
      (more state buffer).2) (state : σ) (buffer : Bytes) :
    Next codec (.framing state buffer reads) (framingNext codec state buffer reads more).1
      (framingNext codec state buffer reads more).2 := by
  unfold framingNext
  cases hdecode : codec.decode state buffer with
  | mk result state' rest =>
    cases result with
    | error e => exact .failure hdecode
    | ok message =>
      cases message with
      | none => exact .pending hdecode (h state' rest)
      | some message => exact .message hdecode

theorem next_reading (codec : Decoder σ μ) (reads : List Read) (state : σ) (buffer : Bytes) :
    Next codec (.reading state buffer reads) (readingNext codec reads state buffer).1
      (readingNext codec reads state buffer).2 := by
  induction reads generalizing state buffer with
  | nil => exact .eof (next_pausing codec state buffer)
  | cons read reads ih => exact .read (next_framing ih state (buffer ++ read.1))

theorem framedReader_place (codec : Decoder σ μ) (initial : σ) :
    FramedReader codec initial (Place.reading initial []) (Place.next codec) Eq where
  at_source _ := rfl
  at_next {reader place} hat hne := by
    subst hat
    refine ⟨_, ?_, rfl⟩
    cases reader with
    | reading state buffer reads => exact next_reading codec reads state buffer
    | framing state buffer reads => exact next_framing (next_reading codec reads) state buffer
    | pausing state buffer => exact next_pausing codec state buffer
    | errored => exact .errored
    | ended => exact absurd rfl hne

/-- What a decoder makes of a line: a line without a result is taken all the same. -/
def decodedLine (parse : Bytes → Option (Except Category μ)) (line rest : Bytes) :
    Decoded Unit μ :=
  match parse (stripCr line) with
  | some result => ⟨lineResult result, (), rest⟩
  | none => ⟨.ok none, (), rest⟩

/-- A line decoder without a state of its own. -/
def lineDecoder (parse : Bytes → Option (Except Category μ)) : Decoder Unit μ where
  decode _ buf :=
    match buf.dropWhile (· != 10) with
    | [] => ⟨.ok none, (), buf⟩
    | _ :: rest => decodedLine parse (buf.takeWhile (· != 10)) rest
  decodeEof _ buf := if stripCr buf = [] then ⟨.ok none, (), buf⟩ else decodedLine parse buf []

theorem decodedLine_of_result {parse : Bytes → Option (Except Category μ)} {line : Bytes}
    {result : Except Category μ} (h : parse (stripCr line) = some result) (rest : Bytes) :
    decodedLine parse line rest = ⟨lineResult result, (), rest⟩ := by
  unfold decodedLine
  rw [h]

theorem lineDecoder_lawful {parse : Bytes → Option (Except Category μ)}
    (h : parse [] = some (.error .eof)) :
    LineDecoder (lineDecoder parse) () parse fun _ _ => True where
  ready_initial := trivial
  ready_append _ _ := trivial
  decode_line {state line rest result} hline _ hparse _ := by
    have hall : ∀ byte ∈ line, byte != 10 := fun byte hbyte =>
      bne_iff_ne.mpr fun heq => hline (heq ▸ hbyte)
    refine ⟨(), ?_, trivial⟩
    rw [← decodedLine_of_result hparse rest]
    change (match (line ++ 10 :: rest).dropWhile (· != 10) with
      | [] => _
      | _ :: rest' => _) = _
    rw [List.dropWhile_append_of_pos hall, List.takeWhile_append_of_pos hall]
    simp
  decode_incomplete {state buf} hbuf _ _ := by
    have hall : ∀ byte ∈ buf, byte != 10 := fun byte hbyte =>
      bne_iff_ne.mpr fun heq => hbuf (heq ▸ hbyte)
    refine ⟨(), ?_, trivial⟩
    change (match buf.dropWhile (· != 10) with
      | [] => _
      | _ :: rest' => _) = _
    rw [List.dropWhile_eq_nil_iff.mpr hall]
  decodeEof_last _ _ hne hparse _ :=
    ⟨(), (if_neg hne).trans (decodedLine_of_result hparse []), trivial⟩
  decodeEof_blank hblank _ := ⟨(), if_pos hblank⟩
  parse_nil := h

/-- A message of the sample. -/
inductive SampleMessage where
  | initialized
  | listTools
  deriving DecidableEq

def sampleInitialized : Bytes :=
  utf8 "\x7b\"jsonrpc\":\"2.0\",\"method\":\"notifications/initialized\"\x7d"

def sampleListTools : Bytes := utf8 "\x7b\"jsonrpc\":\"2.0\",\"id\":2,\"method\":\"tools/list\"\x7d"

def sampleTruncated : Bytes := utf8 "\x7b\"jsonrpc\":"

/-- What the codec of the protocol library makes of the lines of the sample. -/
def sampleParse (line : Bytes) : Option (Except Category SampleMessage) :=
  if line = sampleInitialized then some (.ok .initialized)
  else if line = sampleListTools then some (.ok .listTools)
  else if line = utf8 "[]" then some (.error .data)
  else if line = [] ∨ line = sampleTruncated then some (.error .eof)
  else some (.error .malformed)

/-- A notification, two lines that are not JSON, a request, a line of another shape and the
notification again. -/
def sampleStream : Bytes :=
  sampleInitialized ++ [13, 10] ++ utf8 "\x7bbad\x7d" ++ [10] ++ sampleTruncated ++ [10] ++
    sampleListTools ++ [10] ++ utf8 "[]" ++ [10] ++ sampleInitialized ++ [10]

/-- The stream in three reads, the first of which ends inside the line end. -/
def sampleReads : List Read :=
  [⟨sampleStream.take 55, by decide +kernel⟩, ⟨(sampleStream.drop 55).take 20, by decide +kernel⟩,
    ⟨sampleStream.drop 75, by decide +kernel⟩]

theorem answered_sampleParse (stream : Bytes) : Answered sampleParse stream := by
  intro line _ _
  unfold sampleParse
  split_ifs <;> rfl

/-- Two messages arrive before the transport closes. -/
theorem receives_eq_reference_sample :
    ((Transport.new (Place.reading () [] sampleReads) ⟨true, []⟩).receives
      (Place.next (bounded (lineDecoder sampleParse))) 4).1 =
        [some .initialized, some .listTools, none, none] := by
  have h := receives_eq_reference (lineDecoder_lawful (by decide +kernel))
    (framedReader_place (bounded (lineDecoder sampleParse)) ()) sampleReads
    (answered_sampleParse _) ⟨true, []⟩ 4
  rw [h.1]
  decide +kernel

end Sample

end RustFactory.Mcp
