import TemplateTypes.Text.Hex
import TemplateTypes.Proofs.Probe.Escape

namespace TemplateTypes.Probe

open Text

def unitsOf (n : Nat) : List Nat :=
  if n < 0x10000 then [n] else [0xD800 + (n - 0x10000) / 0x400, 0xDC00 + (n - 0x10000) % 0x400]

def codeUnits (t : Text) : List Nat := t.flatMap fun c => unitsOf c.toNat

@[simp] theorem codeUnits_cons (c : Char) (t : Text) :
    codeUnits (c :: t) = unitsOf c.toNat ++ codeUnits t := rfl

@[simp] theorem codeUnits_append (a b : Text) : codeUnits (a ++ b) = codeUnits a ++ codeUnits b :=
  List.flatMap_append

theorem one_le_length_unitsOf (n : Nat) : 1 ≤ (unitsOf n).length := by
  unfold unitsOf
  split <;> simp

theorem length_unitsOf_le (n : Nat) : (unitsOf n).length ≤ 2 := by
  unfold unitsOf
  split <;> simp

inductive LiteralState
  | plain
  -- Behind a backslash.
  | escape
  -- Behind an escaped zero, which no digit may follow.
  | zero
  -- Behind an escaped carriage return, which a line feed belongs to.
  | lineEnd
  -- Behind digits of the value, one more than `more` of which are to come.
  | digits (more value : Nat)
  -- Behind an escaped `u`.
  | unicode
  -- Behind the brace that follows it; `begun` tells that there have been digits.
  | codePoint (begun : Bool) (value : Nat)

namespace LiteralState

def closes (state : LiteralState) (c : Char) : Bool :=
  c == singleQuote && match state with
    | .plain | .zero | .lineEnd => true
    | _ => false

def plainStep (c : Char) : Option (List Nat × LiteralState) :=
  if c = '\\' then some ([], .escape)
  else if c = '\n' ∨ c = '\r' then none
  else some (unitsOf c.toNat, .plain)

def escapeStep : Char → Option (List Nat × LiteralState)
  | 'b' => some ([8], .plain)
  | 't' => some ([9], .plain)
  | 'n' => some ([10], .plain)
  | 'v' => some ([11], .plain)
  | 'f' => some ([12], .plain)
  | 'r' => some ([13], .plain)
  | '\n' | '\u2028' | '\u2029' => some ([], .plain)
  | '\r' => some ([], .lineEnd)
  | 'x' => some ([], .digits 1 0)
  | 'u' => some ([], .unicode)
  | '0' => some ([0], .zero)
  | c => if c.isDigit then none else some (unitsOf c.toNat, .plain)

/-- The code units that a character adds, and where it leads; none when the literal may not hold
    it there. -/
def step (state : LiteralState) (c : Char) : Option (List Nat × LiteralState) :=
  match state with
  | .plain => plainStep c
  | .escape => escapeStep c
  | .zero => if c.isDigit then none else plainStep c
  | .lineEnd => if c = '\n' then some ([], .plain) else plainStep c
  | .digits more value =>
    match hexValue? c, more with
    | none, _ => none
    | some digit, 0 => some ([value * 16 + digit], .plain)
    | some digit, more + 1 => some ([], .digits more (value * 16 + digit))
  | .unicode =>
    if c = '\x7b' then some ([], .codePoint false 0)
    else (hexValue? c).map fun digit => ([], .digits 2 digit)
  | .codePoint begun value =>
    if c = '\x7d' then if begun then some (unitsOf value, .plain) else none
    else match hexValue? c with
      | none => none
      | some digit =>
        if value * 16 + digit < 0x110000 then some ([], .codePoint true (value * 16 + digit))
        else none

end LiteralState

def readFrom : LiteralState → Text → Option (List Nat × Text)
  | _, [] => none
  | state, c :: rest =>
    if state.closes c then some ([], rest)
    else match state.step c with
      | none => none
      | some (units, next) =>
        (readFrom next rest).map fun (value, after) => (units ++ value, after)

def readString (t : Text) : Option (List Nat) := (readFrom .plain t).map (·.1)

def Quotable (t : Text) : Prop := ∀ c ∈ t, c ∉ [singleQuote, '\\', '\n', '\r']

instance (t : Text) : Decidable (Quotable t) := List.decidableBAll _ t

section

variable {state next : LiteralState} {c : Char} {units value : List Nat} {rest : Text}

def LiteralState.pending : LiteralState → Nat
  | .codePoint _ _ => 1
  | _ => 0

theorem LiteralState.plainStep_bound (steps : plainStep c = some (units, next)) :
    units.length + next.pending ≤ (unitsOf c.toNat).length := by
  unfold plainStep at steps
  split at steps
  · cases steps
    simp [pending]
  · split at steps
    · cases steps
    · cases steps
      simp [pending]

theorem LiteralState.escapeStep_bound (steps : escapeStep c = some (units, next)) :
    units.length + next.pending ≤ (unitsOf c.toNat).length := by
  have room := one_le_length_unitsOf c.toNat
  unfold escapeStep at steps
  split at steps
  case h_14 =>
    split at steps
    · cases steps
    · cases steps
      simp [pending]
  all_goals
    cases steps
    simp only [pending, List.length_cons, List.length_nil]
    omega

theorem LiteralState.step_bound (steps : state.step c = some (units, next)) :
    units.length + next.pending ≤ (unitsOf c.toNat).length + state.pending := by
  have room := one_le_length_unitsOf c.toNat
  cases state with
  | plain => exact plainStep_bound steps
  | escape => exact escapeStep_bound steps
  | zero =>
    simp only [step] at steps
    split at steps
    · cases steps
    · exact plainStep_bound steps
  | lineEnd =>
    simp only [step] at steps
    split at steps
    · cases steps
      simp [pending]
    · exact plainStep_bound steps
  | digits more value =>
    simp only [step] at steps
    split at steps
    · cases steps
    · cases steps
      simpa [pending] using room
    · cases steps
      simp [pending]
  | unicode =>
    simp only [step] at steps
    split at steps
    · cases steps
      simpa [pending] using room
    · obtain ⟨digit, _, same⟩ := Option.map_eq_some_iff.mp steps
      cases same
      simp [pending]
  | codePoint begun value =>
    have two := length_unitsOf_le value
    simp only [step] at steps
    split at steps
    · split at steps
      · cases steps
        simp only [pending]
        omega
      · cases steps
    · split at steps
      · cases steps
      · split at steps
        · cases steps
          simp [pending]
        · cases steps

theorem readFrom_cons_eq_some_iff {after : Text} :
    readFrom state (c :: rest) = some (value, after) ↔
      (state.closes c = true ∧ value = [] ∧ after = rest) ∨
      (state.closes c = false ∧ ∃ units next more, state.step c = some (units, next) ∧
        readFrom next rest = some (more, after) ∧ value = units ++ more) := by
  rw [readFrom]
  cases closed : state.closes c with
  | true =>
    simp only [↓reduceIte, Option.some.injEq, Prod.mk.injEq]
    grind
  | false =>
    cases stepped : state.step c with
    | none => simp
    | some pair =>
      obtain ⟨units, next⟩ := pair
      simp only [Bool.false_eq_true, ↓reduceIte, Option.map_eq_some_iff]
      grind

theorem readFrom_bound {t : Text} (reads : readFrom state t = some (value, rest)) :
    value.length + (codeUnits rest).length + 1 ≤ (codeUnits t).length + state.pending := by
  induction t generalizing state value with
  | nil => cases reads
  | cons c t ih =>
    have room := one_le_length_unitsOf c.toNat
    rw [codeUnits_cons, List.length_append]
    rcases readFrom_cons_eq_some_iff.mp reads with
      ⟨_, rfl, rfl⟩ | ⟨_, units, next, more, steps, onward, rfl⟩
    · rw [List.length_nil]
      omega
    · have first := LiteralState.step_bound steps
      have later := ih onward
      rw [List.length_append]
      omega

theorem LiteralState.plain_of_step_quote (opened : state.closes singleQuote = false)
    (steps : state.step singleQuote = some (units, next)) : next = .plain := by
  cases state with
  | plain | zero | lineEnd => cases opened
  | escape =>
    cases steps
    rfl
  | digits | unicode | codePoint => cases steps

theorem readFrom_ends {t more : Text}
    (reads : readFrom state (t ++ singleQuote :: ';' :: '\n' :: more) = some (value, rest)) :
    ';' :: '\n' :: more <:+ rest := by
  induction t generalizing state value with
  | nil =>
    rcases readFrom_cons_eq_some_iff.mp reads with
      ⟨_, _, rfl⟩ | ⟨opened, _, next, _, steps, onward, _⟩
    · exact List.suffix_rfl
    · obtain rfl := LiteralState.plain_of_step_quote opened steps
      cases onward
  | cons c t ih =>
    rcases readFrom_cons_eq_some_iff.mp reads with ⟨_, _, rfl⟩ | ⟨_, _, _, _, _, onward, _⟩
    · exact ⟨t ++ [singleQuote], by simp⟩
    · exact ih onward

theorem readFrom_length_le {t more : Text}
    (reads : readFrom state (t ++ singleQuote :: ';' :: '\n' :: more) = some (value, rest)) :
    value.length ≤ (codeUnits t).length + state.pending := by
  have room := readFrom_bound reads
  obtain ⟨before, rfl⟩ := readFrom_ends reads
  have quote : (unitsOf singleQuote.toNat).length = 1 := rfl
  simp only [codeUnits_append, codeUnits_cons, List.length_append, quote] at room
  omega

theorem quotable_cons {t : Text} :
    Quotable (c :: t) ↔ c ∉ [singleQuote, '\\', '\n', '\r'] ∧ Quotable t :=
  List.forall_mem_cons

theorem LiteralState.step_plain_of_ne (plain : c ∉ [singleQuote, '\\', '\n', '\r']) :
    LiteralState.plain.closes c = false ∧
      LiteralState.plain.step c = some (unitsOf c.toNat, .plain) := by
  simp only [List.mem_cons, List.not_mem_nil, or_false, not_or] at plain
  obtain ⟨notQuote, notSlash, notFeed, notReturn⟩ := plain
  simp [closes, step, plainStep, notQuote, notSlash, notFeed, notReturn]

theorem readString_eq_some_codeUnits_iff (t more : Text) :
    readString (t ++ singleQuote :: ';' :: '\n' :: more) = some (codeUnits t) ↔ Quotable t := by
  have whole : ∀ t value, readString t = some value ↔
      ∃ rest, readFrom .plain t = some (value, rest) := by
    intro t value
    simp [readString, Option.map_eq_some_iff]
  rw [whole]
  induction t with
  | nil => exact ⟨fun _ c member => absurd member (by simp), fun _ => ⟨_, rfl⟩⟩
  | cons c t ih =>
    rw [quotable_cons]
    constructor
    · rintro ⟨rest, reads⟩
      rcases readFrom_cons_eq_some_iff.mp reads with
        ⟨_, empty, _⟩ | ⟨opened, units, next, value, steps, onward, parts⟩
      · have room := one_le_length_unitsOf c.toNat
        have none := congrArg List.length empty
        simp only [codeUnits_cons, List.length_append, List.length_nil] at none
        omega
      · by_cases plain : c ∈ [singleQuote, '\\', '\n', '\r']
        · -- Only a backslash leads on, and then what is denoted is too short.
          simp only [List.mem_cons, List.not_mem_nil, or_false] at plain
          rcases plain with rfl | rfl | rfl | rfl
          · cases opened
          · cases steps
            have short := readFrom_length_le onward
            have long := congrArg List.length parts
            have slash : (unitsOf '\\'.toNat).length = 1 := rfl
            simp only [codeUnits_cons, List.length_append, slash, List.length_nil,
              LiteralState.pending] at short long
            omega
          · cases steps
          · cases steps
        · rw [(LiteralState.step_plain_of_ne plain).2] at steps
          cases steps
          rw [← List.append_cancel_left parts] at onward
          exact ⟨plain, ih.mp ⟨rest, onward⟩⟩
    · rintro ⟨plain, quotable⟩
      obtain ⟨rest, reads⟩ := ih.mpr quotable
      obtain ⟨opened, steps⟩ := LiteralState.step_plain_of_ne plain
      exact ⟨rest, readFrom_cons_eq_some_iff.mpr (.inr ⟨opened, _, _, _, steps, reads, rfl⟩)⟩

-- Other texts denote themselves only once they are escaped.
example : readString "it\\'s';\n".toList = some (codeUnits "it's".toList) := by decide

end

/-- The text of a template literal whose opening backtick was just read, without the backslashes
    before escaped characters, and what follows the closing backtick. There is none when an
    expression is embedded. -/
def readTemplate : Text → Option (Text × Text)
  | [] => none
  | '\\' :: c :: rest => (readTemplate rest).map fun (t, after) => (c :: t, after)
  | c :: rest =>
    if c = backtick then some ([], rest)
    else if c = '$' ∧ rest.head? = some '\x7b' then none
    else (readTemplate rest).map fun (t, after) => (c :: t, after)

theorem readTemplate_of_ne {c : Char} (notSlash : c ≠ '\\') (rest : Text) :
    readTemplate (c :: rest) =
      if c = backtick then some ([], rest)
      else if c = '$' ∧ rest.head? = some '\x7b' then none
      else (readTemplate rest).map fun (t, after) => (c :: t, after) := by
  rw [readTemplate]
  intro d more same
  exact absurd same notSlash

theorem head?_escapeTemplate_ne_brace {t : Text} (other : t.head? ≠ some '\x7b') (rest : Text) :
    (escapeTemplate t ++ backtick :: rest).head? ≠ some '\x7b' := by
  cases t with
  | nil =>
    intro same
    exact absurd (Option.some.inj same) (by decide)
  | cons c t =>
    rw [escapeTemplate_cons, escapedChar]
    split
    · simp
    · simpa using other

theorem readTemplate_escapeTemplate (t rest : Text) :
    readTemplate (escapeTemplate t ++ backtick :: rest) = some (t, rest) := by
  induction t with
  | nil => rfl
  | cons c t ih =>
    rw [escapeTemplate_cons, escapedChar]
    cases escaped : isEscapedBefore c t.head? with
    | true =>
      simp [readTemplate, ih]
    | false =>
      simp only [isEscapedBefore, Bool.or_eq_false_iff, beq_eq_false_iff_ne, ne_eq] at escaped
      obtain ⟨⟨notSlash, notTick⟩, apart⟩ := escaped
      have plain : ¬ (c = '$' ∧ (escapeTemplate t ++ backtick :: rest).head? = some '\x7b') := by
        rintro ⟨rfl, brace⟩
        exact head?_escapeTemplate_ne_brace (by simpa using apart) rest brace
      simp only [Bool.false_eq_true, ↓reduceIte, List.cons_append, List.nil_append]
      rw [readTemplate_of_ne notSlash, if_neg notTick, if_neg plain, ih]
      rfl

end TemplateTypes.Probe
