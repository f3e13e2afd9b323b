import TemplateTypes.Probe.Position
import TemplateTypes.Proofs.Hover.Document
import TemplateTypes.Proofs.Server.Advancing
import TemplateTypes.Proofs.Text.LineEnds

namespace TemplateTypes

open Text

namespace Position

def isWide (c : Char) : Bool := 0x10000 ≤ c.toNat

def units (c : Char) : Nat := if isWide c then 2 else 1

def lineStart? : (line : Nat) → Text → Option Nat
  | 0, _ => some 0
  | _ + 1, [] => none
  | line + 1, '\r' :: '\n' :: rest => (lineStart? line rest).map (· + 2)
  | line + 1, c :: rest =>
    if c == '\n' || c == '\r' then (lineStart? line rest).map (· + 1)
    else (lineStart? (line + 1) rest).map (· + 1)

/-- How many characters of a line precede a unit of it. Beyond the line's end they are all its
    characters. -/
def charactersBefore : (unit : Nat) → Text → Nat
  | _, [] => 0
  | unit, c :: rest =>
    if c == '\n' || c == '\r' || unit < units c then 0
    else charactersBefore (unit - units c) rest + 1

def offset? (p : Position) (t : Text) : Option Nat :=
  (lineStart? p.line t).map fun start => start + charactersBefore p.column.toNat (t.drop start)

example : offset? ⟨1, 3⟩ "a\rb😀c".toList = some 4 := by decide

def width : Text → Nat
  | [] => 0
  | c :: rest => units c + width rest

theorem width_cons (c : Char) (t : Text) : width (c :: t) = units c + width t := rfl

theorem width_eq (t : Text) : width t = t.length + t.countP isWide := by
  induction t with
  | nil => rfl
  | cons c t ih =>
    rw [width_cons, ih, List.length_cons, List.countP_cons, units]
    split <;> omega

theorem lineStart?_cons {c : Char} (other : c ≠ '\r') (line : Nat) (t : Text) :
    lineStart? (line + 1) (c :: t) =
      (lineStart? (if c = '\n' then line else line + 1) t).map (· + 1) := by
  by_cases feed : c = '\n' <;> simp [lineStart?, feed, other]

theorem lineStart?_lines {lines : Text} (plain : '\r' ∉ lines)
    (ended : lines = [] ∨ lines.getLast? = some '\n') (t : Text) :
    lineStart? (lines.count '\n') (lines ++ t) = some lines.length := by
  induction lines with
  | nil => simp [lineStart?]
  | cons c lines ih =>
    have other : c ≠ '\r' := fun same => plain (same ▸ List.mem_cons_self)
    have rest : lines = [] ∨ lines.getLast? = some '\n' := by
      cases lines with
      | nil => exact .inl rfl
      | cons d lines => simpa [List.getLast?_cons_cons] using ended
    have later := ih (fun inside => plain (List.mem_cons_of_mem _ inside)) rest
    rw [List.cons_append, List.length_cons]
    by_cases feed : c = '\n'
    · rw [feed, List.count_cons_self, lineStart?_cons (by decide), if_pos rfl, later]
      rfl
    · obtain rfl | ends := rest
      · simp [feed] at ended
      · obtain ⟨more, counted⟩ := Nat.exists_eq_succ_of_ne_zero
          (List.count_pos_iff.mpr (List.mem_of_getLast? ends)).ne'
        rw [List.count_cons_of_ne feed, counted, lineStart?_cons other, if_neg feed,
          ← Nat.succ_eq_add_one, ← counted, later]
        rfl

theorem count_of_lineStart? {line start : Nat} {t : Text} (plain : '\r' ∉ t)
    (found : lineStart? line t = some start) : (t.take start).count '\n' = line := by
  induction t generalizing line start with
  | nil => cases line <;> simp_all [lineStart?]
  | cons c t ih =>
    cases line with
    | zero =>
      obtain rfl := Option.some.inj found
      rfl
    | succ line =>
      have other : c ≠ '\r' := fun same => plain (same ▸ List.mem_cons_self)
      rw [lineStart?_cons other] at found
      obtain ⟨inner, foundLater, rfl⟩ := Option.map_eq_some_iff.mp found
      have later := ih (fun inside => plain (List.mem_cons_of_mem _ inside)) foundLater
      rw [List.take_succ_cons, List.count_cons, later]
      by_cases feed : c = '\n' <;> simp [feed]

theorem charactersBefore_eq_iff {before : Text} (plain : '\r' ∉ before) (single : '\n' ∉ before)
    {c : Char} (other : c ≠ '\r') (rest : Text) (unit : Nat) :
    charactersBefore unit (before ++ c :: rest) = before.length ↔
      width before ≤ unit ∧ (c = '\n' ∨ unit < width before + units c) := by
  induction before generalizing unit with
  | nil =>
    by_cases feed : c = '\n' <;> simp [charactersBefore, width, other, feed]
  | cons d before ih =>
    have noReturn : d ≠ '\r' := fun same => plain (same ▸ List.mem_cons_self)
    have noFeed : d ≠ '\n' := fun same => single (same ▸ List.mem_cons_self)
    have later := ih (fun inside => plain (List.mem_cons_of_mem _ inside))
      (fun inside => single (List.mem_cons_of_mem _ inside)) (unit - units d)
    rw [List.cons_append, charactersBefore, width_cons, List.length_cons]
    by_cases short : unit < units d
    · simp only [short, decide_true, Bool.or_true, if_true]
      omega
    · simp only [beq_eq_false_iff_ne.mpr noFeed, beq_eq_false_iff_ne.mpr noReturn, short,
        decide_false, Bool.or_self, Bool.false_eq_true, if_false, Nat.add_right_cancel_iff, later]
      have reached : width before ≤ unit - units d ↔ units d + width before ≤ unit := by omega
      have within : unit - units d < width before + units c ↔
          unit < units d + width before + units c := by omega
      rw [reached, within]

theorem newline_notMem_charactersBefore (unit : Nat) (t : Text) :
    '\n' ∉ t.take (charactersBefore unit t) := by
  induction t generalizing unit with
  | nil => simp
  | cons c t ih =>
    rw [charactersBefore]
    split
    · simp
    · rename_i stays
      rw [List.take_succ_cons]
      refine List.not_mem_cons_of_ne_of_not_mem ?_ (ih _)
      rintro rfl
      simp at stays

/-- In a text without returns a position denotes a character just when it has the number of the
    character's line, and its column comes to the character but not beyond it, where the line goes
    on. -/
theorem offset?_eq_iff {before rest : Text} {c : Char} (plain : '\r' ∉ before ++ c :: rest)
    (p : Position) :
    p.offset? (before ++ c :: rest) = some before.length ↔
      p.line = before.count '\n' ∧ width (lastLine before) ≤ p.column.toNat ∧
        (c = '\n' ∨ p.column.toNat < width (lastLine before) + units c) := by
  obtain ⟨lines, whole, ended⟩ := exists_lines_append_lastLine before
  have inLines : '\r' ∉ lines := fun inside => plain (by rw [whole]; simp [inside])
  have inLast : '\r' ∉ lastLine before := fun inside => plain (by rw [whole]; simp [inside])
  have other : c ≠ '\r' := fun same => plain (by simp [same])
  have single := newline_notMem_lastLine before
  have lineFeeds : before.count '\n' = lines.count '\n' := by
    conv_lhs => rw [whole, List.count_append, List.count_eq_zero_of_not_mem single, Nat.add_zero]
  have length : before.length = lines.length + (lastLine before).length := by
    conv_lhs => rw [whole, List.length_append]
  have split : before ++ c :: rest = lines ++ (lastLine before ++ c :: rest) := by
    conv_lhs => rw [whole, List.append_assoc]
  have column := charactersBefore_eq_iff inLast single other rest p.column.toNat
  have begins := lineStart?_lines inLines ended (lastLine before ++ c :: rest)
  rw [← split, ← lineFeeds] at begins
  constructor
  · intro denoted
    obtain ⟨start, found, reached⟩ := Option.map_eq_some_iff.mp denoted
    have line : before.count '\n' = p.line := by
      have taken : before = (before ++ c :: rest).take before.length := by simp
      rw [taken, ← reached, List.take_add, List.count_append, count_of_lineStart? plain found,
        List.count_eq_zero_of_not_mem (newline_notMem_charactersBefore _ _), Nat.add_zero]
    obtain rfl : lines.length = start := Option.some.inj (begins.symm.trans (line ▸ found))
    rw [split, List.drop_left, length] at reached
    exact ⟨line.symm, column.mp (Nat.add_left_cancel reached)⟩
  · rintro ⟨line, within⟩
    rw [offset?, line, begins, Option.map_some, split, List.drop_left, column.mpr within, length]

def standing (content : Text) (offset : Nat) : Nat :=
  (unifyLines (content.take (offset + 1))).length - 1

/-- How far a position may lie beyond the end of the line: a line feed behind a return does. -/
def slack (content : Text) (offset : Nat) : Nat :=
  if (content.take offset).getLast? = some '\r' ∧ content[offset]? = some '\n' then 1 else 0

/-- The text up to the line end or the other character that an offset is part of. -/
structure Stem (content : Text) (offset : Nat) (c : Char) (stem : Text) : Prop where
  before : content.take offset = stem ++ List.replicate (slack content offset) '\r'
  unified : ∃ rest, unifyLines content = unifyLines stem ++ unifyChar c :: rest
  length : standing content offset = (unifyLines stem).length
  ends : slack content offset = 1 → c = '\n'
  paired : (∀ i < offset, content[i]? = some '\r' → content[i + 1]? = some '\n') ↔
    loneReturns stem = 0

theorem stem_apart {before rest : Text} {c : Char}
    (apart : before.getLast? = some '\r' → c ≠ '\n') :
    Stem (before ++ c :: rest) before.length c before := by
  have noLineEnd : before.getLast? = some '\r' → (c :: rest).head? ≠ some '\n' :=
    fun ends same => apart ends (Option.some.inj same)
  have taken : (before ++ c :: rest).take before.length = before := List.take_left
  have none : slack (before ++ c :: rest) before.length = 0 := by
    refine if_neg fun ⟨ends, feed⟩ => ?_
    rw [taken] at ends
    exact apart ends (by simpa using feed)
  obtain ⟨later, unified⟩ := exists_unifyLines_cons c rest
  refine ⟨by rw [taken, none]; simp, ⟨later, ?_⟩, ?_, by simp [none],
    (loneReturns_eq_zero_iff_append noLineEnd).symm⟩
  · rw [unifyLines_append noLineEnd, unified]
  · have upTo : (before ++ c :: rest).take (before.length + 1) = before ++ [c] :=
      List.take_length_add_append 1
    have single : unifyLines [c] = [unifyChar c] := unifyLines_cons (by simp)
    rw [standing, upTo, unifyLines_append (by simpa using apart), single]
    simp

theorem stem_pair (stem rest : Text) :
    Stem (stem ++ '\r' :: '\n' :: rest) (stem.length + 1) '\n' stem := by
  have noLineEnd : stem.getLast? = some '\r' → ('\r' :: '\n' :: rest).head? ≠ some '\n' := by
    simp
  have taken : (stem ++ '\r' :: '\n' :: rest).take (stem.length + 1) = stem ++ ['\r'] :=
    List.take_length_add_append 1
  have one : slack (stem ++ '\r' :: '\n' :: rest) (stem.length + 1) = 1 :=
    if_pos ⟨by rw [taken, List.getLast?_concat], by simp⟩
  refine ⟨by rw [taken, one]; rfl, ⟨unifyLines rest, ?_⟩, ?_, fun _ => rfl, ?_⟩
  · rw [unifyLines_append noLineEnd, unifyLines_pair]
    rfl
  · have upTo : (stem ++ '\r' :: '\n' :: rest).take (stem.length + 1 + 1) =
        stem ++ ['\r', '\n'] := List.take_length_add_append 2
    rw [standing, upTo, unifyLines_append (by simp)]
    simp [unifyLines_pair, unifyLines]
  · rw [Nat.forall_lt_succ_right, loneReturns_eq_zero_iff_append noLineEnd]
    exact and_iff_left (by simp)

theorem exists_stem {content : Text} {offset : Nat} {c : Char} (here : content[offset]? = some c) :
    ∃ stem, Stem content offset c stem := by
  obtain ⟨inside, rfl⟩ := List.getElem?_eq_some_iff.mp here
  have whole : content = content.take offset ++ content[offset] :: content.drop (offset + 1) := by
    rw [← List.drop_eq_getElem_cons inside, List.take_append_drop]
  have long : (content.take offset).length = offset := List.length_take_of_le inside.le
  generalize content.take offset = before at whole long
  generalize content[offset] = c at whole
  generalize content.drop (offset + 1) = rest at whole
  subst whole long
  by_cases within : before.getLast? = some '\r' ∧ c = '\n'
  · obtain ⟨ends, rfl⟩ := within
    obtain ⟨stem, rfl⟩ := List.getLast?_eq_some_iff.mp ends
    refine ⟨stem, ?_⟩
    have pair := stem_pair stem rest
    simpa using pair
  · exact ⟨before, stem_apart fun ends same => within ⟨ends, same⟩⟩

section

variable {content stem : Text} {offset : Nat} {c : Char}

theorem Stem.lastLine_take (whole : Stem content offset c stem) :
    lastLine (content.take offset) =
      lastLine stem ++ List.replicate (slack content offset) '\r' := by
  rw [whole.before]
  unfold slack
  split
  · exact lastLine_concat (by decide) stem
  · simp

theorem Stem.line (whole : Stem content offset c stem) :
    (ofOffset content offset).line = stem.count '\n' := by
  show (content.take offset).count '\n' = _
  rw [whole.before, List.count_append, List.count_replicate]
  rfl

theorem Stem.column (whole : Stem content offset c stem) (inside : offset < content.length) :
    (ofOffset content offset).column.toNat = (lastLine stem).length + slack content offset := by
  rw [ofOffset_column inside.le, Int.toNat_natCast, whole.lastLine_take, List.length_append,
    List.length_replicate]

end

/-- The position of an offset denotes what stands for it, unless a return by itself or wide
    characters on its line come first. -/
theorem offset?_ofOffset {content : Text} {offset : Nat} {c : Char}
    (here : content[offset]? = some c) :
    (unifyLines content)[standing content offset]? = some (unifyChar c) ∧
      ((ofOffset content offset).offset? (unifyLines content) = some (standing content offset) ↔
        (∀ i < offset, content[i]? = some '\r' → content[i + 1]? = some '\n') ∧
          (lastLine (content.take offset)).countP isWide ≤ slack content offset) := by
  obtain ⟨stem, whole⟩ := exists_stem here
  obtain ⟨rest, unified⟩ := whole.unified
  have plain := return_notMem_unifyLines content
  have column := whole.column (List.getElem?_eq_some_iff.mp here).1
  have wide : (lastLine (content.take offset)).countP isWide = (lastLine stem).countP isWide := by
    rw [whole.lastLine_take, List.countP_append, List.countP_replicate]
    rfl
  refine ⟨by rw [unified, whole.length]; simp, ?_⟩
  rw [unified] at plain ⊢
  rw [whole.length, offset?_eq_iff plain, whole.line, column, count_unifyLines, whole.paired, wide]
  by_cases none : loneReturns stem = 0
  · rw [lastLine_unifyLines none, none, width_eq, Nat.add_zero, Nat.add_le_add_iff_left]
    have beyond : unifyChar c = '\n' ∨ (lastLine stem).length + slack content offset <
        (lastLine stem).length + (lastLine stem).countP isWide + units (unifyChar c) := by
      by_cases one : slack content offset = 1
      · exact .inl (by rw [whole.ends one]; rfl)
      · have zero : slack content offset = 0 := by
          unfold slack at one ⊢
          split at one <;> simp_all
        have least : 1 ≤ units (unifyChar c) := by unfold units; split <;> omega
        omega
    simp [beyond]
  · simp [none]

end Position

namespace Client

theorem step_document {c : Client} {call : Nat} {q : Question} {deadline : Option Int}
    (there : c.task? call = some ⟨call, .reading q, deadline⟩) (now : Int) (content : Text) :
    step now c (.document call (.ok content)) = (hoverContent now call q content (c, [])).2 := by
  have taken : (take now (.document call (.ok content))).run (c, []) =
      hoverContent now call q content (c, []) := by
    unfold take withTask
    change (read >>= fun c => _) (c, []) = _
    rw [bind_apply, read_apply, there]
  rw [step, taken]

/-- The server is given a file's text, and is asked about the position of one of its characters: at
    once, if it takes what is written to it. In the text that it is given that character or its line
    end has a place, and the position denotes this place just when every return before it has a line
    feed behind it and no character before it on its line is beyond the first plane. -/
theorem asked_position_denotes_iff {c : Client} {call : Nat} {deadline : Option Int}
    {files : FileTree} {uri content : Text} {offset : Nat}
    (there : c.task? call = some ⟨call, .reading ⟨uri, .ofOffset content offset⟩, deadline⟩)
    {path : Path} {modified : Int} (named : Uri.toPath uri = .ok path)
    (stored : files.read path.toText = .ok (Utf8.encode content, modified)) {letter : Char}
    (here : content[offset]? = some letter) (now : Int) :
    ∃ text,
      step now c (.document call (Document.read files uri)) =
        (hoverContent now call ⟨uri, .ofOffset content offset⟩ text (c, [])).2 ∧
      (∀ process, c.current = some process → c.writes = [] → c.input process = .taking →
        (step now c (.document call (Document.read files uri))).2 =
          [.write process (Message.opened uri text),
            .write process (Message.request (c.lastRequest + 1) Message.hoverMethod
              (Message.hoverParams ⟨uri, .ofOffset content offset⟩))]) ∧
      text[Position.standing content offset]? = some (unifyChar letter) ∧
      ((Position.ofOffset content offset).offset? text = some (Position.standing content offset) ↔
        (∀ i < offset, content[i]? = some '\r' → content[i + 1]? = some '\n') ∧
          (lastLine (content.take offset)).countP Position.isWide ≤
            Position.slack content offset) := by
  have stepped : step now c (.document call (Document.read files uri)) =
      (hoverContent now call ⟨uri, .ofOffset content offset⟩ (unifyLines content) (c, [])).2 := by
    rw [Document.read_of_file named stored, step_document there]
  refine ⟨unifyLines content, stepped, fun process own free takes => ?_,
    Position.offset?_ofOffset here⟩
  rw [stepped, hoverContent_taken free own takes]

/-- Line ends of two characters and wide ones on earlier lines do no harm. -/
theorem asked_position_denotes_below_wide_line :
    let content : Text := "😀\r\nb c".toList
    let q : Question := ⟨"file:///a".toList, .ofOffset content 5⟩
    let files : FileTree := ⟨[], [([['a']], .file (Utf8.encode content) 0)], none⟩
    let c : Client := ⟨⟨[['s']], ⟨['/'], []⟩, 1, 10000000, 100⟩, [.fresh 100], some 0,
      some 0, 1, true, [], [], [], [⟨7, .reading q, none⟩]⟩
    c.task? 7 = some ⟨7, .reading q, none⟩ ∧ c.current = some 0 ∧ c.writes = [] ∧
      c.input 0 = .taking ∧ Uri.toPath q.uri = .ok ⟨['/'], [['a']]⟩ ∧
      files.read "/a".toList = .ok (Utf8.encode content, 0) ∧ content[5]? = some 'c' ∧
      ∃ text, (step 0 c (.document 7 (Document.read files q.uri))).2.length = 2 ∧
        text[Position.standing content 5]? = some 'c' ∧
        q.position.offset? text = some (Position.standing content 5) := by
  intro content q files c
  have named : Uri.toPath q.uri = .ok ⟨['/'], [['a']]⟩ := by decide +kernel
  have stored : files.read "/a".toList = .ok (Utf8.encode content, 0) := rfl
  have there : c.task? 7 = some ⟨7, .reading q, none⟩ := rfl
  have here : content[5]? = some 'c' := rfl
  obtain ⟨text, _, asked, stands, denotes⟩ :=
    asked_position_denotes_iff there named stored here 0
  refine ⟨there, rfl, rfl, rfl, named, stored, here, text, ?_, stands, denotes.mpr ⟨?_, ?_⟩⟩
  · rw [asked 0 rfl rfl rfl]
    rfl
  · decide +kernel
  · decide +kernel

/-- A return by itself is a line end to the server only, and a wide character before another one
    on its line takes two units there. -/
theorem asked_position_misses_behind_return :
    let content : Text := "a\rb😀c".toList
    let files : FileTree := ⟨[], [([['a']], .file (Utf8.encode content) 0)], none⟩
    ∃ text, Document.read files "file:///a".toList = .ok text ∧
      content[2]? = some 'b' ∧ text[2]? = some 'b' ∧ Position.standing content 2 = 2 ∧
      (Position.ofOffset content 2).offset? text ≠ some 2 ∧
      content[4]? = some 'c' ∧ text[4]? = some 'c' ∧ Position.standing content 4 = 4 ∧
      (Position.ofOffset content 4).offset? text ≠ some 4 := by
  intro content files
  have named : Uri.toPath "file:///a".toList = .ok ⟨['/'], [['a']]⟩ := by decide +kernel
  have stored : files.read "/a".toList = .ok (Utf8.encode content, 0) := rfl
  exact ⟨unifyLines content, Document.read_of_file named stored, by decide +kernel⟩

end Client

end TemplateTypes
