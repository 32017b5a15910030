import KeyOrder.Proofs.Places
import Mathlib.Data.List.DropRight

/-!
# Offsets, positions and byte columns

An offset into a text can be told by its line and the characters before it there, and by its line
and the bytes before it there.  Both count lines by `\n` alone, so what they have in common is how
a text is parted by one of its lines: the lines before it, the line with its line break, and the
rest.  Every line of the index parts the text so, and the line of an offset is the one that starts
after the last `\n` before the offset.

Cut off after a number of bytes, a line ends at the start of a character, or at its end, or inside a
character.  Only the last case has no offset, and it is the case in which the bytes cannot be
decoded.

* `Text.HasLine` says how a line parts a text, and `Text.hasLine_of_getElem?` finds all lines of the
  index;
* `charactersIn_cases` tells the cases of a line apart, and `Text.CutsAt.decoded` and
  `Text.Reaches.decoded` compare them with decoding;
* `coordinates_agree` puts this together.
-/

namespace KeyOrder

namespace Text

/-! ### Lines -/

/-- The characters of a text since its last line break, all of them when it has none. -/
def sinceBreak (text : Text) : Text := text.rtakeWhile (· != '\n')

/-- A text consists of what comes before its line `l`, that line with its line break, and the rest;
only the last line has no line break. -/
structure HasLine (text : Text) (l : Nat) (before line after : Text) : Prop where
  eq_append : text = before ++ (line ++ after)
  number : l = before.count '\n' + 1
  starts : ∀ c ∈ before.getLast?, c = '\n'
  ends : (∃ body, '\n' ∉ body ∧ line = body ++ ['\n']) ∨ '\n' ∉ line ∧ after = []

lemma sinceBreak_append {before line : Text} (hbefore : ∀ c ∈ before.getLast?, c = '\n')
    (hline : '\n' ∉ line) : sinceBreak (before ++ line) = line := by
  have hstop : before.reverse.takeWhile (· != '\n') = [] := by
    rw [List.getLast?_eq_head?_reverse] at hbefore
    cases hreverse : before.reverse with
    | nil => rfl
    | cons c cs =>
      rw [hreverse] at hbefore
      rw [hbefore c rfl]
      rfl
  have hgo : ∀ c ∈ line.reverse, (c != '\n') = true := by
    intro c hc
    rw [bne_iff_ne]
    exact fun h => hline (h ▸ List.mem_reverse.1 hc)
  rw [sinceBreak, List.rtakeWhile, List.reverse_append, List.takeWhile_append_of_pos hgo, hstop,
    List.append_nil, List.reverse_reverse]

lemma length_lines (text : Text) : text.lines.length = text.count '\n' + 1 := by
  induction text with
  | nil => rfl
  | cons c cs ih =>
    by_cases hc : c = '\n'
    · rw [hc, lines, if_pos rfl, List.length_cons, ih, List.count_cons_self]
    · obtain ⟨l, ls, hls⟩ := List.exists_cons_of_ne_nil (lines_ne_nil cs)
      rw [lines, if_neg hc, List.count_cons_of_ne hc, ← ih, hls]
      rfl

/-- A line with a character in front of it that is no line break. -/
lemma HasLine.cons_line {text : Text} {l : Nat} {line after : Text} {c : Char} (hc : c ≠ '\n')
    (h : HasLine text l [] line after) : HasLine (c :: text) l [] (c :: line) after where
  eq_append := congrArg (c :: ·) h.eq_append
  number := h.number
  starts := h.starts
  ends := by
    rcases h.ends with ⟨body, hbody, rfl⟩ | ⟨hline, hafter⟩
    · exact .inl ⟨c :: body, by simp [hbody, Ne.symm hc], rfl⟩
    · exact .inr ⟨by simp [hline, Ne.symm hc], hafter⟩

/-- A line with a line break in front of what comes before it. -/
lemma HasLine.cons_break {text : Text} {l : Nat} {before line after : Text}
    (h : HasLine text l before line after) :
    HasLine ('\n' :: text) (l + 1) ('\n' :: before) line after where
  eq_append := congrArg ('\n' :: ·) h.eq_append
  number := by rw [List.count_cons_self, ← h.number]
  starts := by
    have hstarts := h.starts
    cases before with
    | nil => simp
    | cons d before => simpa using hstarts
  ends := h.ends

/-- A line that is not the first, with a character in front of what comes before it. -/
lemma HasLine.cons_before {text : Text} {l : Nat} {before line after : Text} {c : Char}
    (hc : c ≠ '\n') (h : HasLine text (l + 2) before line after) :
    HasLine (c :: text) (l + 2) (c :: before) line after where
  eq_append := congrArg (c :: ·) h.eq_append
  number := by rw [List.count_cons_of_ne hc, ← h.number]
  starts := by
    have hnumber := h.number
    have hstarts := h.starts
    cases before with
    | nil => simp at hnumber
    | cons d before => simpa using hstarts
  ends := h.ends

/-- **Each line of the index parts the text**, and starts where what comes before it ends.  A
character is put in front of the first line, or it is a line of its own. -/
lemma hasLine_of_getElem? {text : Text} (start : Nat) {i : Nat} {line : Text}
    (h : text.lines[i]? = some line) :
    ∃ before after, HasLine text (i + 1) before line after ∧
      (lineStarts start text.lines)[i]? = some (start + before.length) := by
  induction text generalizing start i line with
  | nil =>
    obtain ⟨rfl, rfl⟩ : i = 0 ∧ line = [] := by
      cases i with
      | zero => exact ⟨rfl, (Option.some.inj h).symm⟩
      | succ i => cases h
    exact ⟨[], [], ⟨rfl, rfl, by simp, .inr ⟨List.not_mem_nil, rfl⟩⟩, rfl⟩
  | cons c cs ih =>
    by_cases hc : c = '\n'
    · -- the line break is a line
      subst hc
      rw [lineStarts_lines_break]
      rw [lines, if_pos rfl] at h
      cases i with
      | zero =>
        cases h
        exact ⟨[], cs, ⟨rfl, rfl, by simp, .inl ⟨[], List.not_mem_nil, rfl⟩⟩, rfl⟩
      | succ i =>
        obtain ⟨before, after, hline, hstart⟩ := ih (start + 1) h
        refine ⟨'\n' :: before, after, hline.cons_break, ?_⟩
        rw [List.getElem?_cons_succ, hstart, List.length_cons]
        congr 1
        omega
    · -- the character belongs to the first line
      obtain ⟨first, rest, hfirst⟩ := List.exists_cons_of_ne_nil (lines_ne_nil cs)
      obtain ⟨starts, hhere, hlater⟩ := lineStarts_lines_cons start hc cs
      have hlines : Text.lines (c :: cs) = (c :: first) :: rest := by
        rw [lines, if_neg hc, hfirst]
      rw [hlines] at h
      rw [hhere]
      cases i with
      | zero =>
        cases h
        obtain ⟨before, after, hline, hstart⟩ := ih (start + 1) (i := 0) (by rw [hfirst]; rfl)
        obtain rfl : before = [] := by
          rw [hlater] at hstart
          have := Option.some.inj hstart
          exact List.eq_nil_of_length_eq_zero (by omega)
        exact ⟨[], after, hline.cons_line hc, rfl⟩
      | succ i =>
        have hrest : (Text.lines cs)[i + 1]? = some line := by rw [hfirst]; exact h
        obtain ⟨before, after, hline, hstart⟩ := ih (start + 1) hrest
        refine ⟨c :: before, after, hline.cons_before hc, ?_⟩
        rw [hlater] at hstart
        rw [List.getElem?_cons_succ] at hstart ⊢
        rw [hstart, List.length_cons]
        congr 1
        omega

/-- An offset up to which there are as many line breaks as before a line lies in that line, or at
the end of it when it is the last one. -/
lemma HasLine.take_eq {text before line after : Text} {l o : Nat}
    (h : HasLine text l before line after)
    (hcount : (text.take o).count '\n' = before.count '\n') :
    text.take o = before ++ sinceBreak (text.take o) ∧ sinceBreak (text.take o) <+: line := by
  have hle : before.length ≤ o := by
    -- otherwise the last line break of `before` comes after the offset
    by_contra hlt
    rcases List.eq_nil_or_concat before with rfl | ⟨front, c, rfl⟩
    · exact hlt (Nat.zero_le _)
    · rw [List.concat_eq_append] at h hcount hlt
      obtain rfl : c = '\n' := h.starts c (by simp)
      have hfront : text.take o <+: front := by
        rw [h.eq_append, List.append_assoc, List.take_append_of_le_length]
        · exact List.take_prefix ..
        · simp only [List.length_append, List.length_singleton] at hlt
          omega
      have := hfront.sublist.count_le (a := '\n')
      rw [hcount, List.count_append, List.count_singleton_self] at this
      omega
  obtain ⟨middle, hmiddle⟩ : ∃ middle, text.take o = before ++ middle := by
    rw [h.eq_append, List.take_append, List.take_of_length_le hle]
    exact ⟨_, rfl⟩
  have hbreakless : '\n' ∉ middle := by
    rw [hmiddle, List.count_append] at hcount
    exact List.count_eq_zero.1 (by omega)
  have hsince : sinceBreak (text.take o) = middle := by
    rw [hmiddle, sinceBreak_append h.starts hbreakless]
  rw [hsince]
  refine ⟨hmiddle, ?_⟩
  have hrest : middle <+: line ++ after := by
    rw [← List.prefix_append_right_inj before, ← hmiddle, ← h.eq_append]
    exact List.take_prefix ..
  rcases h.ends with ⟨body, hbody, rfl⟩ | ⟨-, rfl⟩
  · -- it cannot reach past the line break
    rcases List.prefix_or_prefix_of_prefix hrest (List.prefix_append ..) with hfront | hfront
    · exact hfront
    · exact absurd (hfront.subset (by simp)) hbreakless
  · rwa [List.append_nil] at hrest

/-! ### Bytes -/

@[simp] lemma bytes_cons (c : Char) (cs : Text) : bytes (c :: cs) = c.utf8Size + bytes cs := by
  rw [bytes, List.map_cons, List.sum_cons, bytes]

lemma bytes_append (a b : Text) : bytes (a ++ b) = bytes a + bytes b := by
  rw [bytes, List.map_append, List.sum_append, bytes, bytes]

lemma bytes_take_le (line : Text) {m n : Nat} (hmn : m ≤ n) :
    bytes (line.take m) ≤ bytes (line.take n) := by
  obtain ⟨rest, hrest⟩ := List.take_prefix_take_left (l := line) hmn
  rw [← hrest, bytes_append]
  exact Nat.le_add_right ..

lemma bytes_take_lt {line : Text} {m n : Nat} (hmn : m < n) (hm : m < line.length) :
    bytes (line.take m) < bytes (line.take n) := by
  refine Nat.lt_of_lt_of_le ?_ (bytes_take_le line hmn)
  rw [List.take_succ_eq_append_getElem hm, bytes_append, bytes_cons]
  exact Nat.lt_add_of_pos_right (Nat.add_pos_left (Char.utf8Size_pos _) _)

/-- Cut off after a number of bytes, a text ends strictly inside one of its characters. -/
def CutsAt (line : Text) (b : Nat) : Prop :=
  ∃ n < line.length, bytes (line.take n) < b ∧ b < bytes (line.take (n + 1))

instance (line : Text) (b : Nat) : Decidable (line.CutsAt b) :=
  inferInstanceAs (Decidable (∃ _ < _, _))

/-- Cut off after a number of bytes, a text ends at the start of its character `n`; past its end it
is cut off at its end. -/
def Reaches (line : Text) (b n : Nat) : Prop :=
  n ≤ line.length ∧ (bytes (line.take n) = b ∨ n = line.length ∧ bytes line ≤ b)

instance (line : Text) (b n : Nat) : Decidable (line.Reaches b n) :=
  inferInstanceAs (Decidable (_ ∧ _))

lemma Reaches.not_cutsAt {line : Text} {b n : Nat} (h : Reaches line b n) : ¬CutsAt line b := by
  rintro ⟨m, hm, hlo, hhi⟩
  obtain ⟨-, rfl | ⟨-, hb⟩⟩ := h
  · rcases Nat.lt_or_ge m n with hmn | hnm
    · exact absurd hhi (Nat.not_lt_of_le (bytes_take_le line hmn))
    · exact absurd hlo (Nat.not_lt_of_le (bytes_take_le line hnm))
  · have hall := bytes_take_le line (Nat.succ_le_of_lt hm)
    rw [List.take_length] at hall
    exact absurd (Nat.lt_of_lt_of_le hhi hall) (Nat.not_lt_of_le hb)

/-- More bytes reach further. -/
lemma Reaches.mono {line : Text} {b b' n n' : Nat} (hb : b ≤ b') (h : Reaches line b n)
    (h' : Reaches line b' n') : n ≤ n' := by
  by_contra hlt
  have hn' : n' < line.length := Nat.lt_of_lt_of_le (Nat.lt_of_not_le hlt) h.1
  have hless := bytes_take_lt (Nat.lt_of_not_le hlt) hn'
  have hb' : bytes (line.take n') = b' := h'.2.resolve_right fun hend => Nat.ne_of_lt hn' hend.1
  rcases h.2 with hn | ⟨hn, hend⟩
  · omega
  · rw [hn, List.take_length] at hless
    omega

lemma CutsAt.cons {c : Char} {cs : Text} {b : Nat} (h : CutsAt cs b) :
    CutsAt (c :: cs) (c.utf8Size + b) := by
  obtain ⟨n, hn, hlo, hhi⟩ := h
  refine ⟨n + 1, Nat.succ_lt_succ hn, ?_, ?_⟩
  · rw [List.take_succ_cons, bytes_cons]
    exact Nat.add_lt_add_left hlo _
  · rw [List.take_succ_cons, bytes_cons]
    exact Nat.add_lt_add_left hhi _

lemma Reaches.cons {c : Char} {cs : Text} {b n : Nat} (h : Reaches cs b n) :
    Reaches (c :: cs) (c.utf8Size + b) (n + 1) := by
  obtain ⟨hn, hb⟩ := h
  refine ⟨Nat.succ_le_succ hn, hb.imp (fun hb => ?_) fun ⟨hend, hb⟩ => ⟨?_, ?_⟩⟩
  · rw [List.take_succ_cons, bytes_cons, hb]
  · rw [hend, List.length_cons]
  · rw [bytes_cons]
    exact Nat.add_le_add_left hb _

end Text

/-- Counting characters of a line fails where it is cut inside one of them, and otherwise gives the
character that is reached. -/
lemma charactersIn_cases (line : Text) (b : Nat) :
    line.CutsAt b ∧ charactersIn line b = .error .insideCharacter ∨
      ∃ n, line.Reaches b n ∧ charactersIn line b = .ok n := by
  fun_induction charactersIn line b with
  | case1 b => exact .inr ⟨0, ⟨Nat.le_refl _, .inr ⟨rfl, Nat.zero_le _⟩⟩, rfl⟩
  | case2 c cs => exact .inr ⟨0, ⟨Nat.zero_le _, .inl rfl⟩, rfl⟩
  | case3 c cs b hpos hlt =>
    refine .inl ⟨⟨0, Nat.succ_pos _, Nat.pos_of_ne_zero hpos, ?_⟩, rfl⟩
    rw [List.take_succ_cons, List.take_zero, Text.bytes_cons]
    exact Nat.lt_add_right _ hlt
  | case4 c cs b hpos hle ih =>
    have hb : c.utf8Size + (b - c.utf8Size) = b := Nat.add_sub_of_le (Nat.le_of_not_lt hle)
    rcases ih with ⟨hcut, hcount⟩ | ⟨n, hreach, hcount⟩
    · refine .inl ⟨hb ▸ hcut.cons, ?_⟩
      rw [hcount]
      rfl
    · refine .inr ⟨n + 1, hb ▸ hreach.cons, ?_⟩
      rw [hcount]
      rfl

/-! ### Decoding -/

namespace Text

/-- What the first bytes of a text decode to. -/
def decoded (line : Text) (b : Nat) : Option Text :=
  (String.fromUTF8? ((String.ofList line).toUTF8.extract 0 b)).map String.toList

lemma size_utf8Encode (text : Text) : text.utf8Encode.size = text.bytes := by
  induction text with
  | nil => rfl
  | cons c cs ih =>
    rw [List.utf8Encode_cons, ByteArray.size_append, ih, bytes_cons, List.utf8Encode_singleton,
      List.size_toByteArray, String.length_utf8EncodeChar]

lemma toList_fromUTF8? (text : Text) :
    (String.fromUTF8? text.utf8Encode).map String.toList = some text := by
  rw [String.fromUTF8?, dif_pos ByteArray.isValidUTF8_utf8Encode, Option.map_some]
  have hstring : String.fromUTF8 text.utf8Encode ByteArray.isValidUTF8_utf8Encode =
      String.ofList text := by
    rw [← String.toByteArray_inj, String.toByteArray_ofList]
    rfl
  rw [hstring, String.toList_ofList]

lemma Reaches.decoded {line : Text} {b n : Nat} (h : Reaches line b n) :
    line.decoded b = some (line.take n) := by
  have hextract : line.utf8Encode.extract 0 b = (line.take n).utf8Encode := by
    rcases h.2 with hb | ⟨rfl, hb⟩
    · rw [← size_utf8Encode] at hb
      conv_lhs => rw [← List.take_append_drop n line, List.utf8Encode_append]
      exact ByteArray.extract_append_eq_left hb.symm
    · rw [← size_utf8Encode] at hb
      rw [List.take_length, ← Nat.max_eq_left hb, ByteArray.extract_zero_max_size]
  rw [Text.decoded, String.toUTF8_eq_toByteArray, String.toByteArray_ofList, hextract,
    toList_fromUTF8?]

/-- Bytes that decode are those of a first part of the text, and so they end where a character
does. -/
lemma CutsAt.decoded {line : Text} {b : Nat} (h : CutsAt line b) : line.decoded b = none := by
  rw [Text.decoded, String.toUTF8_eq_toByteArray, String.toByteArray_ofList, String.fromUTF8?,
    dif_neg, Option.map_none]
  rintro ⟨cs, hcs⟩
  have hle : b ≤ line.utf8Encode.size := by
    obtain ⟨n, hn, -, hhi⟩ := h
    have hall := bytes_take_le line (Nat.succ_le_of_lt hn)
    rw [List.take_length] at hall
    rw [size_utf8Encode]
    exact (Nat.lt_of_lt_of_le hhi hall).le
  have hparts : cs.utf8Encode ++ line.utf8Encode.extract b line.utf8Encode.size =
      line.utf8Encode := by
    rw [← hcs, ← ByteArray.extract_eq_extract_append_extract b (Nat.zero_le b) hle,
      ByteArray.extract_zero_size]
  have hfront : cs = line.take cs.length :=
    List.prefix_iff_eq_take.1 (List.isPrefix_of_utf8Encode_append_eq_utf8Encode _ hparts)
  have hsize : bytes (line.take cs.length) = b := by
    rw [← hfront, ← size_utf8Encode, ← hcs, ByteArray.size_extract, Nat.min_eq_left hle,
      Nat.sub_zero]
  have hlength : cs.length ≤ line.length := by
    rw [hfront]
    exact List.length_take_le' ..
  exact Reaches.not_cutsAt ⟨hlength, .inl hsize⟩ h

end Text

/-! ### Conversions -/

namespace LineIndex

open Text (sinceBreak bytes)

/-- A place in a line of a text is looked up in that line. -/
lemma offset_hasLine {text : Text} {i : Nat} {line : Text} (h : text.lines[i]? = some line) :
    ∃ before after, text.HasLine (i + 1) before line after ∧
      (ofText text).starts[i]? = some before.length ∧
      ∀ b, (ofText text).offset ⟨i + 1, b⟩ = (charactersIn line b).map (before.length + ·) := by
  obtain ⟨before, after, hline, hstart⟩ := Text.hasLine_of_getElem? 0 h
  rw [Nat.zero_add] at hstart
  have hstarts : (ofText text).starts[i]? = some before.length := by
    rw [ofText, List.getElem?_toArray, hstart]
  have hlines : (ofText text).lines[i]? = some line := by
    rw [ofText, List.getElem?_toArray, h]
  refine ⟨before, after, hline, hstarts, fun b => ?_⟩
  rw [offset, if_neg (Nat.succ_ne_zero i), Nat.add_sub_cancel, hstarts, hlines]

/-- The position of an offset, and the place that leads back to it. -/
lemma position_ofText {text : Text} {o : Nat} (ho : o ≤ text.length) :
    (ofText text).position o =
        ((text.take o).count '\n' + 1, (sinceBreak (text.take o)).length + 1) ∧
      (ofText text).offset ⟨(text.take o).count '\n' + 1, bytes (sinceBreak (text.take o))⟩ =
        .ok o := by
  have hlt : (text.take o).count '\n' < text.lines.length := by
    rw [Text.length_lines, Nat.lt_succ_iff]
    exact (List.take_sublist ..).count_le _
  obtain ⟨before, after, hline, hstart, hoffset⟩ := offset_hasLine (List.getElem?_eq_getElem hlt)
  obtain ⟨htake, rest, hfront⟩ := hline.take_eq (Nat.succ.inj hline.number)
  have hlength : o = before.length + (sinceBreak (text.take o)).length := by
    rw [← List.length_append, ← htake, List.length_take, Nat.min_eq_left ho]
  constructor
  · rw [position, lineOf_ofText, Nat.add_sub_cancel, hstart, Option.getD_some]
    congr 2
    omega
  · rw [hoffset, ← hfront, charactersIn_append, Except.map, ← hlength]

/-- A line of a text, with what its columns are. -/
lemma exists_columns {text : Text} {l : Nat} (hl : 1 ≤ l) (hlength : l ≤ text.lines.length) :
    ∃ before line after, text.HasLine l before line after ∧ ∀ b,
      line.CutsAt b ∧ (ofText text).offset ⟨l, b⟩ = .error .insideCharacter ∨
        ∃ n, line.Reaches b n ∧ (ofText text).offset ⟨l, b⟩ = .ok (before.length + n) := by
  obtain ⟨i, rfl⟩ := Nat.exists_eq_add_of_le' hl
  obtain ⟨before, after, hline, -, hoffset⟩ :=
    offset_hasLine (List.getElem?_eq_getElem (Nat.lt_of_succ_le hlength))
  refine ⟨before, _, after, hline, fun b => ?_⟩
  rcases charactersIn_cases _ b with ⟨hcut, hcount⟩ | ⟨n, hreach, hcount⟩
  · refine .inl ⟨hcut, ?_⟩
    rw [hoffset, hcount]
    rfl
  · refine .inr ⟨n, hreach, ?_⟩
    rw [hoffset, hcount]
    rfl

end LineIndex

open LineIndex (ofText)
open Text (sinceBreak bytes)

/-- **Offsets, positions and byte columns agree.**  The position of an offset counts the line breaks
before it and the characters since the last one, and that line with the bytes of those characters
leads back to the offset.  Conversely a column of any line, counted in bytes, is looked up by
decoding that many bytes of the line with its line break: this fails exactly where they end strictly
inside a character, and otherwise gives the character that starts there, or the end of the line for
all columns past it.  Larger columns never give smaller offsets. -/
theorem coordinates_agree (text : Text) :
    (∀ o ≤ text.length,
        (ofText text).position o =
          ((text.take o).count '\n' + 1, (sinceBreak (text.take o)).length + 1) ∧
        (ofText text).offset ⟨(text.take o).count '\n' + 1, bytes (sinceBreak (text.take o))⟩ =
          .ok o) ∧
      text.lines.length = text.count '\n' + 1 ∧
      ∀ l, 1 ≤ l → l ≤ text.lines.length → ∃ before line after,
        text.HasLine l before line after ∧ ∀ b,
          ((ofText text).offset ⟨l, b⟩ = .error .insideCharacter ↔ line.CutsAt b) ∧
          (¬line.CutsAt b →
            ∃ n, line.Reaches b n ∧ (ofText text).offset ⟨l, b⟩ = .ok (before.length + n)) ∧
          ((ofText text).offset ⟨l, b⟩).toOption =
            (line.decoded b).map (before.length + ·.length) ∧
          ∀ b' o o', b ≤ b' → (ofText text).offset ⟨l, b⟩ = .ok o →
            (ofText text).offset ⟨l, b'⟩ = .ok o' → o ≤ o' := by
  refine ⟨fun o ho => LineIndex.position_ofText ho, text.length_lines, fun l hl hlength => ?_⟩
  obtain ⟨before, line, after, hline, hcolumns⟩ := LineIndex.exists_columns hl hlength
  refine ⟨before, line, after, hline, fun b => ?_⟩
  rcases hcolumns b with ⟨hcut, hoffset⟩ | ⟨n, hreach, hoffset⟩
  · rw [hoffset, hcut.decoded]
    exact ⟨iff_of_true rfl hcut, (absurd hcut ·), rfl, fun _ _ _ _ h => nomatch h⟩
  · rw [hoffset, hreach.decoded, Option.map_some, List.length_take_of_le hreach.1]
    refine ⟨iff_of_false nofun hreach.not_cutsAt, fun _ => ⟨n, hreach, rfl⟩, rfl,
      fun b' o o' hb h h' => ?_⟩
    cases h
    rcases hcolumns b' with ⟨-, hoffset'⟩ | ⟨n', hreach', hoffset'⟩
    · rw [hoffset'] at h'
      cases h'
    · rw [hoffset'] at h'
      cases h'
      exact Nat.add_le_add_left (hreach.mono hb hreach') _

/-- A letter of two bytes and `\r\n`, a sign of three bytes and `\n`, and an empty line. -/
def Sample.accented : Text := ['é', '\r', '\n', '€', '\n']

/-- The offset after the sign is the second character and the third byte of its line; the last line
starts at the end of the text; and one byte of the sign is no column. -/
theorem coordinates_agree_accented :
    (ofText Sample.accented).position 4 = (2, 2) ∧
      (ofText Sample.accented).offset ⟨2, 3⟩ = .ok 4 ∧
      (ofText Sample.accented).position 5 = (3, 1) ∧
      (ofText Sample.accented).offset ⟨3, 0⟩ = .ok 5 ∧
      ∃ before line after, Sample.accented.HasLine 2 before line after ∧ line.CutsAt 1 := by
  obtain ⟨hoffsets, -, hlines⟩ := coordinates_agree Sample.accented
  obtain ⟨before, line, after, hline, hcolumns⟩ := hlines 2 (by decide) (by decide)
  refine ⟨(hoffsets 4 (by decide)).1, (hoffsets 4 (by decide)).2, (hoffsets 5 (by decide)).1,
    (hoffsets 5 (by decide)).2, before, line, after, hline, ?_⟩
  exact (hcolumns 1).1.1 rfl

end KeyOrder
