import TemplateTypes.Proofs.Probe.Anchor
import TemplateTypes.Proofs.Resolver.Chain
import Mathlib.Data.Nat.Find

namespace TemplateTypes

open Text

namespace Anchor

/-- The last name outside brackets and literals before the first pipe. -/
structure LastName (e : Text) (i : Nat) : Prop where
  named : NameAt .escaping e i
  unpiped : ∀ k < i, ¬ PipeAt .escaping e k
  last : ∀ j < e.length, i < j → NameAt .escaping e j → ∃ k < j, PipeAt .escaping e k

instance (e : Text) (i : Nat) : Decidable (LastName e i) :=
  decidable_of_iff
    (NameAt .escaping e i ∧ (∀ k < i, ¬ PipeAt .escaping e k) ∧
      ∀ j < e.length, i < j → NameAt .escaping e j → ∃ k < j, PipeAt .escaping e k)
    ⟨fun ⟨named, unpiped, last⟩ => ⟨named, unpiped, last⟩,
      fun name => ⟨name.named, name.unpiped, name.last⟩⟩

/-- Up to the first pipe, no literal has its own quote right behind a backslash. -/
def PlainQuotes (e : Text) : Prop :=
  ∀ i < e.length, (∀ k < i, ¬ PipeAt .escaping e k) →
    e[i]? = (place .escaping (e.take i)).literal.map Prod.fst → (e.take i).getLast? ≠ some '\\'

instance (e : Text) : Decidable (PlainQuotes e) :=
  inferInstanceAs (Decidable (∀ i < e.length, (∀ k < i, _) → _ → _))

/-- Two readers see the same brackets and the same literals open. -/
structure Place.Agrees (p q : Place) : Prop where
  depth : p.depth = q.depth
  quote : p.literal.map Prod.fst = q.literal.map Prod.fst

theorem Place.Agrees.isTop_eq {p q : Place} (agrees : p.Agrees q) : p.isTop = q.isTop := by
  have none : p.literal.isNone = q.literal.isNone := by
    rw [← Option.isNone_map (f := Prod.fst), agrees.quote, Option.isNone_map]
  rw [isTop, isTop, agrees.depth, none]

theorem agrees_concat {r q : Reading} {a : Text} {c : Char}
    (agrees : (place r a).Agrees (place q a))
    (plain : some c = (place q a).literal.map Prod.fst → a.getLast? ≠ some '\\') :
    (place r (a ++ [c])).Agrees (place q (a ++ [c])) := by
  rw [place_concat, place_concat]
  cases right : (place q a).literal with
  | none =>
    have left : (place r a).literal = none := by simpa [right] using agrees.quote
    cases opening : quotes c with
    | true =>
      rw [Place.next_quote left opening, Place.next_quote right opening]
      exact ⟨agrees.depth, rfl⟩
    | false =>
      refine ⟨?_, by rw [literal_next left opening, literal_next right opening]⟩
      simp only [Place.next, left, right, opening, agrees.depth, Bool.false_eq_true, if_false]
      repeat' split
      all_goals first | rfl | exact agrees.depth
  | some opened =>
    obtain ⟨quote, escaped⟩ := opened
    obtain ⟨other, left⟩ : ∃ other, (place r a).literal = some (quote, other) := by
      simpa [right] using agrees.quote
    have closes : c = quote → escaped = false ∧ other = false := by
      rintro rfl
      have last := plain (by rw [right]; rfl)
      exact ⟨unescaped right last, unescaped left last⟩
    rw [Place.next, Place.next, left, right]
    by_cases same : c = quote
    · obtain ⟨rfl, rfl⟩ := closes same
      simpa [same] using ⟨agrees.depth, rfl⟩
    · simpa [same] using ⟨agrees.depth, rfl⟩

section

variable {e : Text} {r : Reading} {i k : Nat}

theorem place_agrees (plain : PlainQuotes e) (r : Reading) (i : Nat)
    (unpiped : ∀ k < i, ¬ PipeAt .escaping e k) :
    (place r (e.take i)).Agrees (place .escaping (e.take i)) := by
  induction i with
  | zero => exact ⟨rfl, rfl⟩
  | succ i ih =>
    have agrees := ih fun k below => unpiped k (Nat.lt_succ_of_lt below)
    rcases Nat.lt_or_ge i e.length with within | behind
    · rw [List.take_succ_eq_append_getElem within]
      apply agrees_concat agrees
      rw [← List.getElem?_eq_getElem within]
      exact plain i within fun k below => unpiped k (Nat.lt_succ_of_lt below)
    · rwa [List.take_of_length_le (Nat.le_succ_of_le behind), ← List.take_of_length_le behind]

theorem outside_agrees (plain : PlainQuotes e) (r : Reading)
    (unpiped : ∀ k < i, ¬ PipeAt .escaping e k) :
    outside r (e.take i) = outside .escaping (e.take i) :=
  (place_agrees plain r i unpiped).isTop_eq

theorem LastName.not_nameAt (name : LastName e i) (plain : PlainQuotes e) {j : Nat} (later : i < j)
    (below : j < limit e) : ¬ NameAt .bare e j := by
  intro named
  by_cases piped : ∃ k < j, PipeAt .escaping e k
  · obtain ⟨earlier, pipe⟩ := Nat.find_spec piped
    have first : ∀ k < Nat.find piped, ¬ PipeAt .escaping e k := fun k less pipe =>
      Nat.find_min piped less ⟨Nat.lt_trans less earlier, pipe⟩
    have stop : StopAt .guarded e (Nat.find piped) :=
      .inr ⟨by rw [outside_agrees plain .guarded first]; exact pipe.1, pipe.2⟩
    exact (limit_firstStop e).before _ (Nat.zero_le _) (Nat.lt_trans earlier below) stop
  · have unpiped : ∀ k < j, ¬ PipeAt .escaping e k := fun k less pipe => piped ⟨k, less, pipe⟩
    have same : NameAt .escaping e j :=
      ⟨by rw [← outside_agrees plain .bare unpiped]; exact named.1, named.2⟩
    exact piped (name.last j same.lt_length later same)

theorem LastName.hoverAnchor_eq_iff (name : LastName e i) (plain : PlainQuotes e) :
    hoverAnchor e = i ↔ ∀ k < i, ¬ ParenAt .escaping e k := by
  have settles := hoverAnchor_settlesOn e
  have stops := limit_firstStop e
  have unpiped : ∀ k ≤ i, ∀ j < k, ¬ PipeAt .escaping e j := fun k le j less =>
    name.unpiped j (Nat.lt_of_lt_of_le less le)
  have guarded : ∀ k ≤ i, outside .guarded (e.take k) = outside .escaping (e.take k) :=
    fun k le => outside_agrees plain .guarded (unpiped k le)
  constructor
  -- The search ends at the parenthesis at the latest, and the anchor is before its end.
  · rintro anchored k less ⟨top, paren⟩
    have stop : StopAt .guarded e k :=
      .inl ⟨by rw [guarded k (Nat.le_of_lt less)]; exact top, paren⟩
    have reached : limit e ≤ k := by
      by_contra before
      exact stops.before k (Nat.zero_le k) (Nat.lt_of_not_le before) stop
    rcases settles with ⟨zero, _⟩ | ⟨_, below, _⟩
    · omega
    · omega
  -- The search comes past the name, and behind it finds none before it ends.
  · intro noParen
    have unstopped : ∀ k ≤ i, ¬ StopAt .guarded e k := by
      rintro k le stop
      rcases Nat.eq_or_lt_of_le le with rfl | less
      · exact name.named.not_stop stop
      · rcases stop with ⟨top, paren⟩ | ⟨top, bar⟩
        · exact noParen k less ⟨by rw [← guarded k le]; exact top, paren⟩
        · exact name.unpiped k less ⟨by rw [← guarded k le]; exact top, bar⟩
    have below : i < limit e := by
      by_contra reached
      have le := Nat.le_of_not_lt reached
      exact unstopped _ le (stops.ends (Nat.lt_of_le_of_lt le name.named.lt_length))
    have named : NameAt .bare e i :=
      ⟨by rw [outside_agrees plain .bare (unpiped i (Nat.le_refl i))]; exact name.named.1,
        name.named.2⟩
    rcases settles with ⟨_, absent⟩ | ⟨_, under, found, silent⟩
    · exact absurd named (absent i (Nat.zero_le i) below)
    · rcases Nat.lt_trichotomy (hoverAnchor e) i with before | same | behind
      · exact absurd named (silent i before below)
      · exact same
      · exact absurd found (name.not_nameAt plain behind under)

theorem mem_surface_append {a t : Text} {c : Char} : c ∈ surface r .start a ↔
    ∃ k < a.length, outside r ((a ++ t).take k) = true ∧ (a ++ t)[k]? = some c := by
  have cut : ∀ k < a.length, (outside r ((a ++ t).take k) = true ∧ (a ++ t)[k]? = some c ↔
      outside r (a.take k) = true ∧ a[k]? = some c) := by
    intro k within
    rw [List.take_append_of_le_length (Nat.le_of_lt within), List.getElem?_append_left within]
  rw [mem_surface_iff]
  constructor
  · rintro ⟨k, top, there⟩
    have within := (List.getElem?_eq_some_iff.mp there).1
    exact ⟨k, within, (cut k within).mpr ⟨top, there⟩⟩
  · rintro ⟨k, within, shown⟩
    exact ⟨k, (cut k within).mp shown⟩

open Chain

variable {chain before after : List ChainStep} {name a v : Text}

theorem lastName_of_lastMember (member : LastMember e chain before name after a v) :
    LastName e a.length := by
  obtain ⟨c, u, rfl, start, parts⟩ := member.named
  have text := member.text
  have top : outside .escaping a = true := by rw [outside, member.front.back]; rfl
  refine ⟨?_, ?_, ?_⟩
  · rw [text, List.cons_append, nameAt_iff]
    exact ⟨top, member.free, start⟩
  · rintro k less ⟨shown, bar, _⟩
    rw [text] at shown bar
    exact member.front.noBar (mem_surface_append.mpr ⟨k, less, shown, bar⟩)
  · intro j _ later named
    exfalso
    rcases Nat.lt_or_ge j (a.length + (c :: u).length) with within | behind
    · rw [text] at named
      exact not_nameAt_of_nameParts parts j later within named
    · obtain ⟨shown, _, d, there, begins⟩ := named
      obtain ⟨m, rfl⟩ := Nat.exists_eq_add_of_le behind
      have regroup : e = (a ++ (c :: u)) ++ v := by rw [text, List.append_assoc]
      have length : a.length + (c :: u).length = (a ++ (c :: u)).length := by
        rw [List.length_append]
      have back : place .escaping (a ++ (c :: u)) = .start :=
        (member.front.append (shows_name parts)).back
      rw [regroup, length] at shown there
      rw [List.take_length_add_append, outside, place_append, back] at shown
      rw [Option.mem_def, List.getElem?_append_right (Nat.le_add_right _ _),
        Nat.add_sub_cancel_left] at there
      obtain ⟨other, later⟩ := member.back.named d (mem_surface_iff.mpr ⟨m, shown, there⟩) begins
      exact member.last other later

theorem no_paren_iff (member : LastMember e chain before name after a v) :
    (∀ k < a.length, ¬ ParenAt .escaping e k) ↔ ∀ arguments, .call arguments ∉ before := by
  have shown := member.front.paren
  rw [mem_surface_append (t := name ++ v), ← member.text] at shown
  rw [← not_exists, ← shown]
  simp [ParenAt]

end

end Anchor

open Anchor

/-- Up to its first pipe the expression has its quotes behind no backslash: then the anchor is its
    last name there exactly when no parenthesis stands before that name outside brackets and
    literals. For a member chain whose subscripts and arguments close, that name is the last
    member's, and the anchor is there exactly when no call comes before that member. -/
theorem hoverAnchor_lastName_iff (e : Text) (plain : PlainQuotes e) :
    (∀ i, LastName e i → (hoverAnchor e = i ↔ ∀ k < i, ¬ ParenAt .escaping e k)) ∧
      ∀ chain, Chain.ofExpression? e = some chain →
        (∀ inner, .index inner ∈ chain ∨ .call inner ∈ chain → Closed inner) →
        ∃ i before name after, LastName e i ∧ chain = before ++ .member name :: after ∧
          (∀ other, .member other ∉ after) ∧
          Chain.ofExpression? (e.drop i) = some (.member name :: after) ∧
          (hoverAnchor e = i ↔ ∀ arguments, .call arguments ∉ before) := by
  refine ⟨fun i name => name.hoverAnchor_eq_iff plain, fun chain read closed => ?_⟩
  obtain ⟨before, name, after, a, v, member⟩ := Chain.exists_lastMember read closed
  have last := lastName_of_lastMember member
  refine ⟨a.length, before, name, after, last, member.steps, member.last, member.onward, ?_⟩
  rw [last.hoverAnchor_eq_iff plain, no_paren_iff member]

theorem hoverAnchor_lastName_iff_users :
    PlainQuotes "users['a'].name".toList ∧ hoverAnchor "users['a'].name".toList = 11 ∧
      ∃ i before name after, LastName "users['a'].name".toList i ∧
        [.member "users".toList, .index "'a'".toList, .member "name".toList] =
          before ++ .member name :: after ∧
        (∀ other, .member other ∉ after) ∧
        Chain.ofExpression? ("users['a'].name".toList.drop i) = some (.member name :: after) ∧
        (hoverAnchor "users['a'].name".toList = i ↔ ∀ arguments, .call arguments ∉ before) := by
  have plain : PlainQuotes "users['a'].name".toList := by decide +kernel
  obtain ⟨names, chains⟩ := hoverAnchor_lastName_iff _ plain
  refine ⟨plain, (names 11 (by decide +kernel)).mpr (by decide +kernel),
    chains _ (by decide +kernel) ?_⟩
  rintro inner (subscript | call)
  · have subscript : inner = "'a'".toList := by simpa using subscript
    rw [subscript]
    decide +kernel
  · simp at call

/-- A call in the middle, a group in front and an escaped quote keep the anchor from the last
    name. -/
theorem hoverAnchor_misses_lastName :
    (Closed "user.getName().length".toList ∧ LastName "user.getName().length".toList 15 ∧
      Chain.ofExpression? "user.getName().length".toList =
        some [.member "user".toList, .member "getName".toList, .call [], .member "length".toList] ∧
      hoverAnchor "user.getName().length".toList = 5) ∧
    (Closed "(a).b".toList ∧ LastName "(a).b".toList 4 ∧ hoverAnchor "(a).b".toList = 0) ∧
    Closed "x['it\\'s'].y".toList ∧ LastName "x['it\\'s'].y".toList 11 ∧
      hoverAnchor "x['it\\'s'].y".toList = 0 := by
  decide +kernel

end TemplateTypes
