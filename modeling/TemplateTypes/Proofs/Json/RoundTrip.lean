import TemplateTypes.Proofs.Json.Scalars
import TemplateTypes.Proofs.Json.Strings

namespace TemplateTypes.Json

open Text

mutual

/-- Without floating-point numbers, without more digits than are read, without a name twice. -/
def Plain : Json → Prop
  | .null | .bool _ | .str _ => True
  | .int n => (ofNat n.natAbs).length ≤ maxDigits
  | .float _ => False
  | .arr items => PlainItems items
  | .obj members => (members.map (·.1)).Nodup ∧ PlainMembers members

def PlainItems : List Json → Prop
  | [] => True
  | item :: more => Plain item ∧ PlainItems more

def PlainMembers : List (Text × Json) → Prop
  | [] => True
  | (_, value) :: more => Plain value ∧ PlainMembers more

end

mutual

def depth : Json → Nat
  | .arr items => itemsDepth items + 1
  | .obj members => membersDepth members + 1
  | _ => 0

def itemsDepth : List Json → Nat
  | [] => 0
  | item :: more => max (depth item) (itemsDepth more)

def membersDepth : List (Text × Json) → Nat
  | [] => 0
  | (_, value) :: more => max (depth value) (membersDepth more)

end

theorem setMember_new {name : Text} (value : Json) {members : List (Text × Json)}
    (new : name ∉ members.map (·.1)) : setMember name value members = members ++ [(name, value)] := by
  induction members with
  | nil => rfl
  | cons member more ih =>
    rw [List.map_cons, List.mem_cons, not_or] at new
    have other : (member.1 == name) = false := by simpa using Ne.symm new.1
    simp [setMember, other, ih new.2]

theorem foldl_setMember (members done : List (Text × Json))
    (distinct : ((done ++ members).map (·.1)).Nodup) :
    members.foldl (fun done member => setMember member.1 member.2 done) done = done ++ members := by
  induction members generalizing done with
  | nil => simp
  | cons member more ih =>
    have new : member.1 ∉ done.map (·.1) := by
      rw [List.map_append, List.nodup_append] at distinct
      intro old
      exact distinct.2.2 _ old _ (by simp) rfl
    rw [List.foldl_cons, setMember_new member.2 new, ih _ (by simpa using distinct)]
    simp

theorem ofMembers_distinct {members : List (Text × Json)}
    (distinct : (members.map (·.1)).Nodup) : ofMembers members = .obj members := by
  rw [ofMembers, foldl_setMember members [] distinct, List.nil_append]

theorem skipSpace_cons {c : Char} (solid : isSpace c = false) (t : Text) :
    skipSpace (c :: t) = c :: t := by
  simp [skipSpace, solid]

theorem skipSpace_space (t : Text) : skipSpace (' ' :: t) = skipSpace t := by
  simp [skipSpace, isSpace]

/-- What a value begins with is no space, ends no array and is no mark of the byte order. -/
structure Opens (c : Char) : Prop where
  solid : isSpace c = false
  noBracket : c ≠ ']'
  noMark : c ≠ '\uFEFF'

theorem opens_digit {c : Char} (others : ∀ letter : Char, letter.isDigit = false → letter ≠ c) :
    Opens c where
  solid := by
    simp [isSpace, (others ' ' rfl).symm, (others '\t' rfl).symm, (others '\n' rfl).symm,
      (others '\r' rfl).symm]
  noBracket := (others ']' rfl).symm
  noMark := (others '\uFEFF' rfl).symm

theorem write_starts {v : Json} (plain : v.Plain) : ∃ c t, write v = c :: t ∧ Opens c := by
  cases v with
  | null => exact ⟨'n', _, rfl, by constructor <;> decide⟩
  | bool b =>
    cases b with
    | false => exact ⟨'f', _, rfl, by constructor <;> decide⟩
    | true => exact ⟨'t', _, rfl, by constructor <;> decide⟩
  | int n =>
    cases n with
    | ofNat m =>
      obtain ⟨c, t, written, others⟩ := starts_ofNat m
      exact ⟨c, t, written, opens_digit others⟩
    | negSucc m => exact ⟨'-', _, rfl, by constructor <;> decide⟩
  | float x => exact plain.elim
  | str t => exact ⟨doubleQuote, _, rfl, by constructor <;> decide⟩
  | arr items => exact ⟨'[', _, rfl, by constructor <;> decide⟩
  | obj members => exact ⟨'\x7b', _, rfl, by constructor <;> decide⟩

theorem value_string (fuel levels : Nat) (t rest : Text) :
    value (fuel + 1) levels (stringText t ++ rest) = .ok (.str t, rest) := by
  simp only [stringText, List.cons_append, List.append_assoc, List.nil_append]
  unfold value
  rw [if_pos (beq_self_eq_true doubleQuote), string_text]

theorem value_ofInt (fuel levels : Nat) (n : Int) {rest : Text} (stops : Stops rest)
    (short : (ofNat n.natAbs).length ≤ maxDigits) :
    value (fuel + 1) levels (ofInt n ++ rest) = .ok (.int n, rest) := by
  have number := scalar_ofInt n stops short
  obtain ⟨c, t, written, others⟩ : ∃ c t, ofInt n = c :: t ∧
      c ≠ doubleQuote ∧ c ≠ '[' ∧ c ≠ '\x7b' := by
    cases n with
    | ofNat m =>
      obtain ⟨c, t, written, others⟩ := starts_ofNat m
      exact ⟨c, t, written, (others doubleQuote rfl).symm, (others '[' rfl).symm,
        (others '\x7b' rfl).symm⟩
    | negSucc m => exact ⟨_, _, rfl, by decide⟩
  rw [written, List.cons_append] at number ⊢
  unfold value
  simp [others, number]

theorem skipSpace_write {v : Json} (plain : v.Plain) (rest : Text) :
    skipSpace (write v ++ rest) = write v ++ rest := by
  obtain ⟨c, t, written, opens⟩ := write_starts plain
  rw [written, List.cons_append, skipSpace_cons opens.solid]

theorem writeItems_cons (item next : Json) (more : List Json) :
    writeItems (item :: next :: more) =
      write item ++ (", ".toList ++ writeItems (next :: more)) := by
  rw [writeItems, List.append_assoc]
  simp

theorem writeMembers_last (name : Text) (v : Json) :
    writeMembers [(name, v)] = stringText name ++ (": ".toList ++ write v) := by
  rw [writeMembers, List.append_assoc]

theorem writeMembers_cons (name : Text) (v : Json) (next : Text × Json)
    (more : List (Text × Json)) :
    writeMembers ((name, v) :: next :: more) =
      stringText name ++
        (": ".toList ++ (write v ++ (", ".toList ++ writeMembers (next :: more)))) := by
  rw [writeMembers]
  · simp only [List.append_assoc]
  · simp

theorem writeItems_starts {item : Json} (more : List Json) (plain : item.Plain) :
    ∃ c t, writeItems (item :: more) = c :: t ∧ Opens c := by
  obtain ⟨c, t, written, opens⟩ := write_starts plain
  cases more with
  | nil => exact ⟨c, t, written, opens⟩
  | cons next more =>
    rw [writeItems_cons, written]
    exact ⟨c, _, rfl, opens⟩

theorem writeMembers_starts (member : Text × Json) (more : List (Text × Json)) :
    ∃ t, writeMembers (member :: more) = doubleQuote :: t := by
  cases more with
  | nil => exact ⟨_, rfl⟩
  | cons next more =>
    rw [writeMembers_cons]
    exact ⟨_, rfl⟩

theorem skipSpace_writeItems {item : Json} (more : List Json) (plain : item.Plain)
    (rest : Text) : skipSpace (writeItems (item :: more) ++ rest) =
      writeItems (item :: more) ++ rest := by
  obtain ⟨c, t, written, opens⟩ := writeItems_starts more plain
  rw [written, List.cons_append, skipSpace_cons opens.solid]

theorem skipSpace_writeMembers (member : Text × Json) (more : List (Text × Json)) (rest : Text) :
    skipSpace (writeMembers (member :: more) ++ rest) =
      writeMembers (member :: more) ++ rest := by
  obtain ⟨t, written⟩ := writeMembers_starts member more
  rw [written, List.cons_append, skipSpace_cons (by decide)]

theorem value_items {item : Json} (more : List Json) (plain : item.Plain) (fuel levels : Nat)
    (rest : Text) :
    value (fuel + 1) (levels + 1) ('[' :: (writeItems (item :: more) ++ rest)) =
      items fuel levels [] (writeItems (item :: more) ++ rest) := by
  obtain ⟨c, t, written, opens⟩ := writeItems_starts more plain
  rw [value, skipSpace_writeItems more plain]
  simp [written, opens.noBracket, doubleQuote]

theorem value_members (member : Text × Json) (more : List (Text × Json)) (fuel levels : Nat)
    (rest : Text) :
    value (fuel + 1) (levels + 1) ('\x7b' :: (writeMembers (member :: more) ++ rest)) =
      members fuel levels [] (writeMembers (member :: more) ++ rest) := by
  obtain ⟨t, written⟩ := writeMembers_starts member more
  rw [value, skipSpace_writeMembers]
  simp [written, doubleQuote]

theorem items_last {fuel levels : Nat} {v : Json} {t rest : Text} (done : List Json)
    (first : value fuel levels t = .ok (v, ']' :: rest)) :
    items (fuel + 1) levels done t = .ok (.arr (done.reverse ++ [v]), rest) := by
  rw [items, first]
  dsimp only
  rw [skipSpace_cons (by decide)]
  simp

theorem items_more {fuel levels : Nat} {v : Json} {t rest : Text} (done : List Json)
    (first : value fuel levels t = .ok (v, ", ".toList ++ rest)) :
    items (fuel + 1) levels done t = items fuel levels (v :: done) (skipSpace rest) := by
  have comma : skipSpace (", ".toList ++ rest) = ',' :: ' ' :: rest := skipSpace_cons (by decide) _
  rw [items, first]
  dsimp only
  rw [comma]
  simp [skipSpace_space]

theorem skipSpace_colon {t : Text} (solid : skipSpace t = t) :
    skipSpace (": ".toList ++ t) = ':' :: ' ' :: t ∧ skipSpace (' ' :: t) = t :=
  ⟨skipSpace_cons (by decide) _, (skipSpace_space t).trans solid⟩

theorem members_last {fuel levels : Nat} {v : Json} {t rest : Text} (done : List (Text × Json))
    (name : Text) (solid : skipSpace t = t) (first : value fuel levels t = .ok (v, '\x7d' :: rest)) :
    members (fuel + 1) levels done (stringText name ++ (": ".toList ++ t)) =
      .ok (ofMembers (done.reverse ++ [(name, v)]), rest) := by
  have close : skipSpace ('\x7d' :: rest) = '\x7d' :: rest := skipSpace_cons (by decide) rest
  simp only [stringText, List.cons_append, List.append_assoc, List.nil_append]
  rw [members]
  simp only [bne_self_eq_false, Bool.false_eq_true, ↓reduceIte, string_text,
    skipSpace_colon solid, first, close, List.reverse_cons]

theorem members_more {fuel levels : Nat} {v : Json} {t rest : Text} (done : List (Text × Json))
    (name : Text) (solid : skipSpace t = t)
    (first : value fuel levels t = .ok (v, ", ".toList ++ rest)) :
    members (fuel + 1) levels done (stringText name ++ (": ".toList ++ t)) =
      members fuel levels ((name, v) :: done) (skipSpace rest) := by
  have comma : skipSpace (", ".toList ++ rest) = ',' :: ' ' :: rest := skipSpace_cons (by decide) _
  simp only [stringText, List.cons_append, List.append_assoc, List.nil_append]
  rw [members]
  simp only [bne_self_eq_false, Bool.false_eq_true, ↓reduceIte, string_text,
    skipSpace_colon solid, first, comma, skipSpace_space]

theorem stops_nil : Stops [] := by simp [Stops]

theorem stops_bracket (rest : Text) : Stops (']' :: rest) := by simp [Stops]

theorem stops_brace (rest : Text) : Stops ('\x7d' :: rest) := by simp [Stops]

theorem stops_comma (rest : Text) : Stops (", ".toList ++ rest) := by simp [Stops]

mutual

theorem value_write : ∀ (v : Json), v.Plain → ∀ (fuel levels : Nat) (rest : Text),
    (write v).length ≤ fuel → v.depth ≤ levels → Stops rest →
    value fuel levels (write v ++ rest) = .ok (v, rest)
  | v, plain, 0, levels, rest, enough, shallow, stops => by
    obtain ⟨c, t, written, _⟩ := write_starts plain
    simp [written] at enough
  | .null, plain, fuel + 1, levels, rest, enough, shallow, stops => rfl
  | .bool true, plain, fuel + 1, levels, rest, enough, shallow, stops => rfl
  | .bool false, plain, fuel + 1, levels, rest, enough, shallow, stops => rfl
  | .int n, plain, fuel + 1, levels, rest, enough, shallow, stops =>
    value_ofInt fuel levels n stops plain
  | .float x, plain, fuel + 1, levels, rest, enough, shallow, stops => plain.elim
  | .str t, plain, fuel + 1, levels, rest, enough, shallow, stops => value_string fuel levels t rest
  | .arr _, plain, fuel + 1, 0, rest, enough, shallow, stops => by simp [depth] at shallow
  | .obj _, plain, fuel + 1, 0, rest, enough, shallow, stops => by simp [depth] at shallow
  | .arr [], plain, fuel + 1, levels + 1, rest, enough, shallow, stops => by
    rw [write, writeItems, List.nil_append, List.cons_append, value]
    simp [skipSpace_cons, isSpace, doubleQuote]
  | .arr (item :: more), plain, fuel + 1, levels + 1, rest, enough, shallow, stops => by
    rw [write] at enough ⊢
    rw [depth] at shallow
    simp only [List.length_cons, List.length_append, List.length_nil] at enough
    simp only [List.cons_append, List.append_assoc, List.nil_append]
    rw [value_items more plain.1,
      items_write item more plain fuel levels [] rest (by omega) (by omega)]
    rfl
  | .obj [], plain, fuel + 1, levels + 1, rest, enough, shallow, stops => by
    rw [write, writeMembers, List.nil_append, List.cons_append, value]
    simp [skipSpace_cons, isSpace, doubleQuote]
  | .obj (member :: more), plain, fuel + 1, levels + 1, rest, enough, shallow, stops => by
    rw [write] at enough ⊢
    rw [depth] at shallow
    simp only [List.length_cons, List.length_append, List.length_nil] at enough
    simp only [List.cons_append, List.append_assoc, List.nil_append]
    rw [value_members,
      members_write member more plain.2 fuel levels [] rest (by omega) (by omega)]
    rw [List.reverse_nil, List.nil_append, ofMembers_distinct plain.1]

theorem items_write : ∀ (item : Json) (more : List Json), PlainItems (item :: more) →
    ∀ (fuel levels : Nat) (done : List Json) (rest : Text),
    (writeItems (item :: more)).length < fuel → itemsDepth (item :: more) ≤ levels →
    items fuel levels done (writeItems (item :: more) ++ ']' :: rest) =
      .ok (.arr (done.reverse ++ item :: more), rest)
  | item, more, plain, 0, levels, done, rest, enough, shallow => by simp at enough
  | item, [], plain, fuel + 1, levels, done, rest, enough, shallow => by
    rw [writeItems] at enough ⊢
    rw [itemsDepth] at shallow
    exact items_last done
      (value_write item plain.1 fuel levels _ (by omega) (by omega) (stops_bracket rest))
  | item, next :: more, plain, fuel + 1, levels, done, rest, enough, shallow => by
    rw [writeItems_cons] at enough ⊢
    rw [itemsDepth] at shallow
    simp only [List.length_append] at enough
    simp only [List.append_assoc]
    have first := value_write item plain.1 fuel levels
      (", ".toList ++ (writeItems (next :: more) ++ ']' :: rest)) (by omega) (by omega)
      (stops_comma _)
    have gap : ", ".toList.length = 2 := rfl
    rw [items_more done first, skipSpace_writeItems more plain.2.1,
      items_write next more plain.2 fuel levels (item :: done) rest (by omega) (by omega)]
    simp

theorem members_write : ∀ (member : Text × Json) (more : List (Text × Json)),
    PlainMembers (member :: more) →
    ∀ (fuel levels : Nat) (done : List (Text × Json)) (rest : Text),
    (writeMembers (member :: more)).length < fuel → membersDepth (member :: more) ≤ levels →
    members fuel levels done (writeMembers (member :: more) ++ '\x7d' :: rest) =
      .ok (ofMembers (done.reverse ++ member :: more), rest)
  | member, more, plain, 0, levels, done, rest, enough, shallow => by simp at enough
  | (name, v), [], plain, fuel + 1, levels, done, rest, enough, shallow => by
    rw [writeMembers_last] at enough ⊢
    rw [membersDepth] at shallow
    simp only [List.length_append] at enough
    simp only [List.append_assoc]
    have first := value_write v plain.1 fuel levels ('\x7d' :: rest) (by omega) (by omega)
      (stops_brace rest)
    exact members_last done name (skipSpace_write plain.1 _) first
  | (name, v), next :: more, plain, fuel + 1, levels, done, rest, enough, shallow => by
    rw [writeMembers_cons] at enough ⊢
    rw [membersDepth] at shallow
    simp only [List.length_append] at enough
    simp only [List.append_assoc]
    have first := value_write v plain.1 fuel levels
      (", ".toList ++ (writeMembers (next :: more) ++ '\x7d' :: rest)) (by omega) (by omega)
      (stops_comma _)
    have gap : ", ".toList.length = 2 := rfl
    rw [members_more done name (skipSpace_write plain.1 _) first, skipSpace_writeMembers,
      members_write next more plain.2 fuel levels ((name, v) :: done) rest (by omega) (by omega)]
    simp

end

theorem read_write {v : Json} (plain : v.Plain) {nesting : Nat} (shallow : v.depth ≤ nesting + 1) :
    read nesting (write v) = .ok v := by
  have whole := value_write v plain (2 * (write v).length + 2) (nesting + 1) [] (by omega) shallow
    stops_nil
  have solid := skipSpace_write plain []
  rw [List.append_nil] at whole solid
  obtain ⟨c, t, written, opens⟩ := write_starts plain
  rw [written] at whole solid ⊢
  have nothing : skipSpace [] = [] := rfl
  unfold read
  simp [opens.noMark, solid, whole, nothing, -List.length_cons]

end TemplateTypes.Json
