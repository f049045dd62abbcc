import RenderFarm.OutputSink
import RenderFarm.Proofs.Text.Encoding

/-!
# Texts and bytes through one sink

A sink takes text as it is, and bytes as the text that lossy decoding reads. Chunks that are cut from
a text between characters are the bytes of pieces of that text (`Cuts.exists_pieces`), so they come
through as those pieces. Main statement: `bytes_received_as_texts`.
-/

namespace RenderFarm.OutputSink

open Text

/-- Chunks that are cut from the bytes of a text, with every cut between two characters. -/
structure Cuts (text : String) (chunks : List (List UInt8)) : Prop where
  whole : chunks.flatten = bytesOf text
  between : ∀ count, String.Pos.Raw.IsValid text ⟨(chunks.take count).flatten.length⟩

/-- Writes chunks with one call each. -/
def writeChunks (sink : OutputSink) (chunks : List (List UInt8)) : OutputSink :=
  chunks.foldl (fun sink chunk => (sink.writeBytes chunk).2) sink

/-! ## Pieces -/

theorem flatten_map_bytesOf (pieces : List String) :
    (pieces.map bytesOf).flatten = bytesOf (String.join pieces) := by
  induction pieces with
  | nil => rfl
  | cons piece rest ih => rw [List.map_cons, List.flatten_cons, ih, String.join_cons, bytesOf_append]

/-- Behind a piece, the places between characters are those of the rest. -/
theorem isValid_of_append {piece rest : String} {offset : Nat}
    (between : String.Pos.Raw.IsValid (piece ++ rest) ⟨piece.utf8ByteSize + offset⟩) :
    String.Pos.Raw.IsValid rest ⟨offset⟩ := by
  rcases String.Pos.Raw.isValid_append.1 between with inside | ⟨-, behind⟩
  · have reach : piece.utf8ByteSize + offset ≤ piece.utf8ByteSize :=
      String.Pos.Raw.le_iff.1 inside.le_rawEndPos
    obtain rfl : offset = 0 := by omega
    exact String.Pos.Raw.isValid_zero
  · have place : (⟨piece.utf8ByteSize + offset⟩ : String.Pos.Raw) - piece = ⟨offset⟩ :=
      String.Pos.Raw.ext (Nat.add_sub_cancel_left _ _)
    rwa [place] at behind

/-- The first chunk cut from a text is the bytes of a piece, and the others are cut from the text
behind it. -/
theorem Cuts.exists_piece {text : String} {chunk : List UInt8} {chunks : List (List UInt8)}
    (cuts : Cuts text (chunk :: chunks)) :
    ∃ piece rest, text = piece ++ rest ∧ chunk = bytesOf piece ∧ Cuts rest chunks := by
  obtain ⟨piece, rest, rfl, boundary⟩ :=
    String.Pos.Raw.isValid_iff_exists_append.1 (cuts.between 1)
  have size : chunk.length = (bytesOf piece).length := by
    simpa [length_bytesOf] using congrArg String.Pos.Raw.byteIdx boundary
  have whole := cuts.whole
  rw [List.flatten_cons, bytesOf_append] at whole
  obtain ⟨rfl, behind⟩ := List.append_inj whole size
  refine ⟨piece, rest, rfl, rfl, behind, fun count => ?_⟩
  have cut := cuts.between (count + 1)
  rw [List.take_succ_cons, List.flatten_cons, List.length_append, length_bytesOf] at cut
  exact isValid_of_append cut

/-- Chunks cut from a text are the bytes of its pieces. -/
theorem Cuts.exists_pieces {text : String} {chunks : List (List UInt8)} (cuts : Cuts text chunks) :
    ∃ pieces : List String, chunks = pieces.map bytesOf ∧ String.join pieces = text := by
  induction chunks generalizing text with
  | nil =>
    have empty : bytesOf text = bytesOf "" := cuts.whole.symm
    exact ⟨[], rfl, (bytesOf_injective empty).symm⟩
  | cons chunk chunks ih =>
    obtain ⟨piece, rest, rfl, rfl, behind⟩ := cuts.exists_piece
    obtain ⟨pieces, rfl, rfl⟩ := ih behind
    exact ⟨piece :: pieces, rfl, String.join_cons⟩

/-- The bytes of pieces are cut from the text that the pieces make. -/
theorem cuts_map_bytesOf (pieces : List String) :
    Cuts (String.join pieces) (pieces.map bytesOf) where
  whole := flatten_map_bytesOf pieces
  between := by
    intro count
    rw [← List.map_take, flatten_map_bytesOf, length_bytesOf]
    refine String.Pos.Raw.isValid_iff_exists_append.2
      ⟨String.join (pieces.take count), String.join (pieces.drop count), ?_, rfl⟩
    rw [← String.join_append, List.take_append_drop]

/-! ## Writes -/

theorem writeText_of_forwards {sink : OutputSink} (forwards : sink.discards = false) (text : String) :
    sink.writeText text = { sink with received := sink.received ++ [text] } := by
  simp only [writeText, forwards, Bool.false_eq_true, if_false]

/-- A sink that forwards hands every text on, one after the other. -/
theorem received_foldl_writeText {sink : OutputSink} (forwards : sink.discards = false)
    (texts : List String) : (texts.foldl writeText sink).received = sink.received ++ texts := by
  induction texts generalizing sink with
  | nil => exact (List.append_nil _).symm
  | cons text rest ih =>
    rw [List.foldl_cons, writeText_of_forwards forwards, ih (by exact forwards), List.append_assoc]
    rfl

theorem writeBytes_bytesOf (sink : OutputSink) (text : String) :
    (sink.writeBytes (bytesOf text)).2 = sink.writeText text := by
  simp only [writeBytes, bytesOf_eq_encode, decodeLossy_encode, String.ofList_toList]

theorem writeChunks_map_bytesOf (sink : OutputSink) (pieces : List String) :
    sink.writeChunks (pieces.map bytesOf) = pieces.foldl writeText sink := by
  rw [writeChunks, List.foldl_map]
  simp only [writeBytes_bytesOf]

/-- Text in front of the bytes comes through as it is, and behind it what is read from the bytes. -/
theorem writeBytes_append (sink : OutputSink) (text : String) (bytes : List UInt8) :
    (sink.writeBytes (bytesOf text ++ bytes)).2 =
      sink.writeText (text ++ String.ofList (decodeLossy bytes)) := by
  simp only [writeBytes, bytesOf_eq_encode, decodeLossy_encode_append, String.ofList_append,
    String.ofList_toList]

/-- All the bytes are taken by one call. -/
theorem writeAll_eq (sink : OutputSink) {bytes : List UInt8} (nonempty : bytes ≠ []) :
    sink.writeAll bytes = some (sink.writeBytes bytes).2 := by
  cases bytes with
  | nil => exact absurd rfl nonempty
  | cons byte rest =>
    have taken : ¬(byte :: rest).length = 0 := Nat.succ_ne_zero _
    rw [writeAll]
    simp only [writeBytes, if_neg taken, List.drop_length]
    rw [writeAll]

/-- A sink that forwards hands on one text for each call. Chunks cut from a text between characters
come through as the pieces that they spell. One call with a text and any bytes behind it gives the
text with what is read from the bytes alone, and all its bytes are taken. -/
theorem bytes_received_as_texts (sink : OutputSink) :
    (sink.discards = false → ∀ texts : List String,
      (texts.foldl writeText sink).received = sink.received ++ texts) ∧
    (∀ (text : String) (chunks : List (List UInt8)), Cuts text chunks →
      ∃ pieces : List String, chunks = pieces.map bytesOf ∧ String.join pieces = text ∧
        sink.writeChunks chunks = pieces.foldl writeText sink) ∧
    ∀ bytes : List UInt8, ∃ read : String, Reads bytes read.toList ∧
      sink.writeBytes bytes = (bytes.length, sink.writeText read) ∧
      (∀ text : String,
        sink.writeBytes (bytesOf text ++ bytes) =
          ((bytesOf text ++ bytes).length, sink.writeText (text ++ read))) ∧
      (bytes ≠ [] → sink.writeAll bytes = some (sink.writeText read)) := by
  refine ⟨received_foldl_writeText, fun text chunks cuts => ?_, fun bytes => ?_⟩
  · obtain ⟨pieces, rfl, joined⟩ := cuts.exists_pieces
    exact ⟨pieces, rfl, joined, writeChunks_map_bytesOf sink pieces⟩
  · refine ⟨String.ofList (decodeLossy bytes), ?_, rfl, fun text => ?_, writeAll_eq sink⟩
    · rw [String.toList_ofList]
      exact reads_decodeLossy bytes
    · exact Prod.ext rfl (writeBytes_append sink text bytes)

/-- Four characters of one to four bytes in four chunks, of which one is empty. -/
def mixedWidths : List (List UInt8) :=
  [[0x61], [0xC3, 0xA9, 0xE2, 0x82, 0xAC], [], [0xF0, 0x9F, 0x98, 0x80]]

/-- A character cut short, the first two bytes of a surrogate and a byte that leads nothing. -/
def brokenBytes : List UInt8 :=
  [0xE2, 0x82, 0xED, 0xA0, 0xC0]

theorem mixed_widths_received :
    Cuts "aé€😀" mixedWidths ∧ (start false).discards = false ∧ brokenBytes ≠ [] ∧
      ((start false).writeChunks mixedWidths).received = ["a", "é€", "", "😀"] ∧
      ((start false).writeBytes (mixedWidths.flatten ++ brokenBytes)).2.received =
        ["aé€😀\uFFFD\uFFFD\uFFFD\uFFFD"] ∧
      ((start false).writeAll brokenBytes).map received = some ["\uFFFD\uFFFD\uFFFD\uFFFD"] := by
  have spelt : ["a", "é€", "", "😀"].map bytesOf = mixedWidths := by decide
  have cuts : Cuts "aé€😀" mixedWidths := spelt ▸ cuts_map_bytesOf ["a", "é€", "", "😀"]
  have decoded : decodeLossy brokenBytes = ['\uFFFD', '\uFFFD', '\uFFFD', '\uFFFD'] := by
    simp [brokenBytes, decodeLossy, decodeHead, followers?, tailOf, replacement]
  obtain ⟨heard, pieced, single⟩ := bytes_received_as_texts (start false)
  obtain ⟨pieces, spelt', -, chunked⟩ := pieced "aé€😀" mixedWidths cuts
  obtain ⟨read, reads, -, joined, taken⟩ := single brokenBytes
  have same : pieces = ["a", "é€", "", "😀"] :=
    bytesOf_injective.list_map (spelt'.symm.trans spelt.symm)
  have told : read = "\uFFFD\uFFFD\uFFFD\uFFFD" :=
    String.toList_inj.1 ((reads_iff.1 reads).symm.trans decoded)
  refine ⟨cuts, rfl, List.cons_ne_nil _ _, ?_, ?_, ?_⟩
  · rw [chunked, heard rfl, same]
    rfl
  · rw [cuts.whole, joined, told]
    exact heard rfl ["aé€😀\uFFFD\uFFFD\uFFFD\uFFFD"]
  · rw [taken (List.cons_ne_nil _ _), Option.map_some, told]
    exact congrArg some (heard rfl ["\uFFFD\uFFFD\uFFFD\uFFFD"])

end RenderFarm.OutputSink
