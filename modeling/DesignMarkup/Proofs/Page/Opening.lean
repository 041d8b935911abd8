import DesignMarkup.Command
import DesignMarkup.Page.Output
import DesignMarkup.Proofs.Outcome

/-!
# `Proofs.Page.Opening` — no output is a design

Designs are JSON objects, and an object begins with a brace. A page begins with an angle, a stylesheet with
a slash and a report with a bracket, and the first character of a text comes through the bytes of a file
unharmed. So a file that a conversion has written is never read as a design.

## Contents

* `head_of_decodeUtf8`, `head_unifyLineEnds`: the first character of a file;
* `readChars_object`, `nodeOf_ok`: how objects begin;
* `opening_mem`, `not_loadNode_of_output`: **outputs are no designs**.
-/

namespace DesignMarkup

/-! ## The first character of a file -/

namespace Text

theorem toList_loop (bytes : ByteArray) (i : Nat) (done : List UInt8) :
    ByteArray.toList.loop bytes i done = done.reverse ++ bytes.data.toList.drop i := by
  -- on the number of bytes that are left
  generalize hleft : bytes.size - i = left
  induction left generalizing i done with
  | zero =>
    have hend : ¬i < bytes.size := by omega
    have hlength : bytes.data.toList.length ≤ i := by
      rw [Array.length_toList]
      exact Nat.le_of_not_lt hend
    rw [ByteArray.toList.loop, if_neg hend, List.drop_eq_nil_of_le hlength, List.append_nil]
  | succ left ih =>
    have hmore : i < bytes.size := by omega
    have hlength : i < bytes.data.toList.length := by
      rw [Array.length_toList]
      exact hmore
    rw [ByteArray.toList.loop, if_pos hmore, ih (i + 1) _ (by omega), List.reverse_cons, List.append_assoc,
      List.drop_eq_getElem_cons hlength]
    have hbyte : bytes.get! i = bytes.data.toList[i] := getElem!_pos bytes.data i hmore
    rw [hbyte]
    rfl

/-- The bytes of an array in order. -/
theorem toList_eq (bytes : ByteArray) : bytes.toList = bytes.data.toList := by
  rw [ByteArray.toList, toList_loop]
  rfl

/-- What was decoded stays at the front. -/
theorem decodeFrom_prefix {bytes : List UInt8} {done cs : List Char} {position skip : Nat}
    (h : decodeFrom done position skip bytes = .ok cs) : done.reverse <+: cs := by
  induction bytes generalizing done position skip with
  | nil =>
    obtain rfl := Except.ok.inj h
    exact List.prefix_rfl
  | cons b rest ih =>
    rw [decodeFrom.eq_def] at h
    dsimp only at h
    split at h
    · exact ih h
    · split at h
      · cases h
      · next c length hc =>
        refine List.IsPrefix.trans ?_ (ih h)
        rw [List.reverse_cons]
        exact List.prefix_append _ _

/-- The first characters of pages, stylesheets and reports. -/
def openings : List Char :=
  ['<', '/', '[']

/-- Each of them is a single byte. -/
theorem decodeFirst_opening : ∀ c ∈ openings, ∀ rest,
    String.utf8EncodeChar c = [c.val.toUInt8] ∧ decodeFirst c.val.toUInt8 rest = .ok (c, 1) := by
  intro c hc rest
  simp only [openings, List.mem_cons, List.not_mem_nil, or_false] at hc
  rcases hc with rfl | rfl | rfl
  · exact ⟨by decide, rfl⟩
  · exact ⟨by decide, rfl⟩
  · exact ⟨by decide, rfl⟩

/-- **The first character of a text comes through its bytes.** -/
theorem head_of_decodeUtf8 {c : Char} {cs : List Char} {s t : String} (hc : c ∈ openings)
    (hs : s.toList = c :: cs) (h : decodeUtf8 (encodeUtf8 s) = .ok t) : t.toList.head? = some c := by
  have hbytes : (encodeUtf8 s).toList = c.val.toUInt8 :: cs.utf8Encode.data.toList := by
    have hencode : encodeUtf8 s = (c :: cs).utf8Encode := by
      rw [← hs, encodeUtf8, String.toUTF8_eq_toByteArray, String.utf8Encode_toList]
    rw [toList_eq, hencode, List.utf8Encode_cons, ByteArray.toList_data_append, List.utf8Encode_singleton,
      (decodeFirst_opening c hc []).1, List.toList_data_toByteArray]
    rfl
  rw [decodeUtf8, hbytes, decodeFrom, (decodeFirst_opening c hc _).2] at h
  rcases hdecoded : decodeFrom [c] 1 0 cs.utf8Encode.data.toList with e | decoded
  · cases (congrArg (Except.map String.ofList) hdecoded).symm.trans h
  · obtain rfl := Except.ok.inj ((congrArg (Except.map String.ofList) hdecoded).symm.trans h)
    obtain ⟨rest, rfl⟩ := decodeFrom_prefix hdecoded
    rw [String.toList_ofList]
    rfl

theorem foldl_pushUnified_prefix (cs out : List Char) (afterReturn : Bool) :
    out.reverse <+: (cs.foldl pushUnified (out, afterReturn)).1.reverse := by
  induction cs generalizing out afterReturn with
  | nil => exact List.prefix_rfl
  | cons c rest ih =>
    rw [List.foldl_cons, pushUnified]
    split
    · refine List.IsPrefix.trans ?_ (ih _ _)
      rw [List.reverse_cons]
      exact List.prefix_append _ _
    · split
      · exact ih _ _
      · refine List.IsPrefix.trans ?_ (ih _ _)
        rw [List.reverse_cons]
        exact List.prefix_append _ _

/-- The first character stays when line ends become the same. -/
theorem head_unifyLineEnds {c : Char} {cs : List Char} (hc : c ∈ openings) (h : cs.head? = some c) :
    (unifyLineEnds cs).head? = some c := by
  obtain ⟨rest, rfl⟩ := List.head?_eq_some_iff.mp h
  have hpush : pushUnified ([], false) c = ([c], false) := by
    simp only [openings, List.mem_cons, List.not_mem_nil, or_false] at hc
    rcases hc with rfl | rfl | rfl
    · rfl
    · rfl
    · rfl
  rw [unifyLineEnds, List.foldl_cons, hpush]
  obtain ⟨more, hmore⟩ := foldl_pushUnified_prefix rest [c] false
  rw [← hmore]
  rfl

end Text

/-! ## How objects begin -/

namespace Json

/-- The elements of an array make an array. -/
theorem elements_ok {fuel : Nat} {done : List Json} {cs rest : List Char} {v : Json}
    (h : elements fuel done cs = .ok (v, rest)) : ∃ items, v = .array items := by
  induction fuel generalizing done cs with
  | zero =>
    rw [elements] at h
    cases h
  | succ fuel ih =>
    rw [elements] at h
    obtain ⟨⟨first, after⟩, -, h⟩ := bind_eq_ok.mp h
    dsimp only at h
    split at h
    · obtain ⟨rfl, -⟩ := Prod.mk.inj (pure_eq_ok.mp h)
      exact ⟨_, rfl⟩
    · exact ih h
    · cases h

/-- No word is an object. -/
theorem literal?_ne_object {cs rest : List Char} {fields : List (String × Json)} :
    literal? cs ≠ some (.object fields, rest) := by
  intro h
  rw [literal?] at h
  obtain ⟨⟨word, v⟩, hmem, hword⟩ := List.exists_of_findSome?_eq_some h
  dsimp only at hword
  split at hword
  · obtain ⟨rfl, -⟩ := Prod.mk.inj (Option.some.inj hword)
    simp [literals] at hmem
  · cases hword

/-- **An object begins with a brace.** -/
theorem value_object {fuel : Nat} {cs rest : List Char} {fields : List (String × Json)}
    (h : value fuel cs = .ok (.object fields, rest)) : cs.head? = some '\x7b' := by
  cases fuel with
  | zero =>
    rw [value] at h
    cases h
  | succ fuel =>
    rw [value.eq_def] at h
    dsimp only at h
    split at h
    · obtain ⟨⟨s, after⟩, -, h⟩ := bind_eq_ok.mp h
      cases (Prod.mk.inj (pure_eq_ok.mp h)).1
    · rfl
    · split at h
      · cases (Prod.mk.inj (Except.ok.inj h)).1
      · obtain ⟨items, hitems⟩ := elements_ok h
        cases hitems
    · split at h
      · next r hliteral =>
        obtain rfl := Except.ok.inj h
        exact absurd hliteral literal?_ne_object
      · obtain ⟨⟨n, after⟩, -, h⟩ := bind_eq_ok.mp h
        cases (Prod.mk.inj (pure_eq_ok.mp h)).1

/-- The text of an object begins with a brace, after blanks. -/
theorem readChars_object {cs : List Char} {fields : List (String × Json)}
    (h : readChars cs = .ok (.object fields)) : (skipBlanks cs).head? = some '\x7b' := by
  rw [readChars.eq_def] at h
  dsimp only at h
  split at h
  · cases h
  · rcases hvalue : value (2 * cs.length + 2) (skipBlanks cs) with ⟨fault, left⟩ | ⟨v, rest⟩
    · rw [hvalue] at h
      cases h
    · rw [hvalue] at h
      dsimp only at h
      split at h
      · obtain rfl := Except.ok.inj h
        exact value_object hvalue
      · cases h

end Json

/-! ## Outputs are no designs -/

/-- Node data are an object. -/
theorem nodeOf_ok {data : Json} {n : Node} (h : nodeOf data = .ok n) : ∃ fields, data = .object fields := by
  cases data with
  | object fields => exact ⟨fields, rfl⟩
  | null => cases h
  | bool _ => cases h
  | number _ => cases h
  | string _ => cases h
  | array _ => cases h

/-- A file is no design if its text begins like an output. -/
theorem not_loadNode_of_head {s : Store} {path text : String} {c : Char} {cs : List Char}
    (hread : s.read (Path.read path) = .ok (Text.encodeUtf8 text)) (hc : c ∈ Text.openings)
    (htext : text.toList = c :: cs) : ¬Succeeds (loadNode s path) := by
  rintro ⟨n, hload⟩
  rw [loadNode] at hload
  obtain ⟨bytes, hbytes, htextOf⟩ := bind_eq_ok.mp hload
  obtain rfl := Except.ok.inj ((mapError_eq_ok.mp hbytes).symm.trans hread)
  obtain ⟨chars, hchars, hjson⟩ := bind_eq_ok.mp htextOf
  obtain ⟨data, hdata, hnode⟩ := bind_eq_ok.mp hjson
  -- the first character of the text is that of the characters that are read as JSON
  obtain ⟨decoded, hdecoded, hpure⟩ := bind_eq_ok.mp (mapError_eq_ok.mp hchars)
  obtain ⟨fields, rfl⟩ := nodeOf_ok (mapError_eq_ok.mp hnode)
  have hbrace := Json.readChars_object (mapError_eq_ok.mp hdata)
  rw [← pure_eq_ok.mp hpure] at hbrace
  have hhead := Text.head_unifyLineEnds hc (Text.head_of_decodeUtf8 hc htext hdecoded)
  obtain ⟨rest, hrest⟩ := List.head?_eq_some_iff.mp hhead
  rw [hrest] at hbrace
  simp only [Text.openings, List.mem_cons, List.not_mem_nil, or_false] at hc
  rcases hc with rfl | rfl | rfl
  · cases hbrace
  · cases hbrace
  · cases hbrace

namespace Page

theorem document_opening (body title : String) (isChild : Bool) (version : String) :
    ∃ cs, (document body title isChild version).toList = '<' :: cs := by
  have hfirst : "<!DOCTYPE html>\n".toList = '<' :: "!DOCTYPE html>\n".toList := by decide +kernel
  unfold document
  simp only [String.toList_append, List.append_assoc, hfirst, List.cons_append]
  exact ⟨_, rfl⟩

theorem stylesheet_opening (t : StyleTable) (version : String) :
    ∃ cs, (stylesheet t version).toList = '/' :: cs := by
  have hfirst : "/* Generated from Figma */\n".toList = '/' :: "* Generated from Figma */\n".toList := by
    decide +kernel
  unfold stylesheet
  simp only [String.toList_append, List.append_assoc, hfirst, List.cons_append]
  exact ⟨_, rfl⟩

theorem componentsText_opening (components : List Layer) :
    ∃ cs, (componentsText components).toList = '[' :: cs := by
  rw [componentsText]
  cases components with
  | nil => exact ⟨_, rfl⟩
  | cons l rest =>
    rw [List.map_cons, Json.indented]
    simp only [String.toList_append, List.append_assoc]
    exact ⟨_, rfl⟩

/-- **Every output begins in its own way**, and never like an object. -/
theorem opening_mem {folder : String} {r : Result} {styles : StyleTable} {o : Options} {fileName : String}
    {f : OutputFile} (h : f ∈ outputFiles folder r styles o fileName) :
    ∃ c ∈ Text.openings, ∃ cs, f.content.toList = c :: cs := by
  have hall : f.content = pageText r o ∨ f.content = stylesheet styles o.bootstrapVersion ∨
      f.content = componentsText r.components := by
    rw [outputFiles] at h
    split at h
    · rw [List.mem_singleton.mp h]
      exact .inl rfl
    · split at h
      · rcases List.mem_cons.mp h with rfl | h
        · exact .inl rfl
        · rw [List.mem_singleton.mp h]
          exact .inr (.inl rfl)
      · rcases List.mem_cons.mp h with rfl | h
        · exact .inl rfl
        · rcases List.mem_cons.mp h with rfl | h
          · exact .inr (.inl rfl)
          · rw [List.mem_singleton.mp h]
            exact .inr (.inr rfl)
  rcases hall with hpage | hsheet | hreport
  · rw [hpage]
    exact ⟨'<', by decide, document_opening _ _ _ _⟩
  · rw [hsheet]
    exact ⟨'/', by decide, stylesheet_opening _ _⟩
  · rw [hreport]
    exact ⟨'[', by decide, componentsText_opening _⟩

/-- **No output is a design.** -/
theorem not_loadNode_of_output {folder : String} {r : Result} {styles : StyleTable} {o : Options}
    {fileName path : String} {f : OutputFile} {s : Store} (h : f ∈ outputFiles folder r styles o fileName)
    (hread : s.read (Path.read path) = .ok (Text.encodeUtf8 f.content)) :
    ¬Succeeds (loadNode s path) := by
  obtain ⟨c, hc, cs, hcontent⟩ := opening_mem h
  exact not_loadNode_of_head hread hc hcontent

end Page

end DesignMarkup
