import TemplateTypes.Probe.Registry
import TemplateTypes.Proofs.Text.Search

namespace TemplateTypes.Probe

open Text

theorem find?_marker_of_no_backtick {t : Text} (absent : backtick ∉ t) : find? marker t = none :=
  find?_eq_none_of_not_mem (by decide) absent

theorem find?_marker_line (first : Text) (absent : find? marker first = none) (t : Text) :
    find? marker (first ++ '\n' :: t) = (find? marker t).map (· + (first.length + 1)) := by
  rw [find?_append_separator (by decide) (by decide), absent, Option.none_or]

theorem find?_marker_plain_line (first : Text) (plain : backtick ∉ first) (t : Text) :
    find? marker (first ++ '\n' :: t) = (find? marker t).map (· + (first.length + 1)) :=
  find?_marker_line first (find?_marker_of_no_backtick plain) t

def frameworkLine : Text := "import \x7b Component \x7d from '@angular/core';".toList

def selectorLine (suffix : Text) : Text := "  selector: 'app-type-probe-".toList ++ suffix ++ "',".toList

def decorator (suffix : Text) : Text :=
  [] ++ '\n' :: ("@Component(\x7b".toList ++ '\n' :: (selectorLine suffix ++ '\n' ::
    ("  standalone: true,".toList ++ '\n' :: ("  ".toList ++ marker))))

theorem cut_around {first last front back : Text} {c d : Char} (middle : Text)
    (above : first = front ++ [c]) (below : last = d :: back) :
    first ++ middle ++ last = front ++ c :: (middle ++ d :: back) := by
  subst above below
  simp

theorem selectorLine_eq (suffix : Text) : selectorLine suffix =
    "  selector: 'app-type-probe".toList ++ '-' :: (suffix ++ singleQuote :: [',']) :=
  cut_around suffix (by decide) (by decide)

theorem find?_marker_selectorLine {suffix : Text} (free : includes suffix marker = false) :
    find? marker (selectorLine suffix) = none := by
  have absent : find? marker suffix = none := by simpa [includes] using free
  have front : find? marker "  selector: 'app-type-probe".toList = none :=
    find?_marker_of_no_backtick (by decide)
  have back : find? marker [','] = none := by decide
  rw [selectorLine_eq, find?_append_separator (by decide) (by decide), front,
    find?_append_separator (by decide) (by decide), absent, back]
  rfl

theorem marker_le_decorator (suffix : Text) : marker.length ≤ (decorator suffix).length := by
  simp only [decorator, List.length_append, List.length_cons]
  omega

theorem find?_marker_decorator {suffix : Text} (free : includes suffix marker = false)
    (rest : Text) : find? marker (decorator suffix ++ rest) =
      some ((decorator suffix).length - marker.length) := by
  have last : find? marker ("  ".toList ++ (marker ++ rest)) = some 2 := rfl
  simp only [decorator, List.append_assoc, List.cons_append]
  rw [find?_marker_plain_line [] (by simp), find?_marker_plain_line _ (by decide),
    find?_marker_line _ (find?_marker_selectorLine free), find?_marker_plain_line _ (by decide),
    last]
  have indent : "  ".toList.length = 2 := rfl
  simp only [Option.map_some, List.length_append, List.length_cons, List.length_nil, indent]
  exact congrArg some (by omega)

theorem cut_lines {first upper lower opener front back option indent : Text} (middle last : Text)
    (above : upper = '\n' :: '\n' :: (opener ++ '\n' :: front))
    (below : lower = back ++ '\n' :: (option ++ '\n' :: indent)) :
    first ++ upper ++ middle ++ lower ++ last =
      first ++ '\n' :: ([] ++ '\n' :: (opener ++ '\n' :: (front ++ middle ++ back ++ '\n' ::
        (option ++ '\n' :: (indent ++ last))))) := by
  subst above below
  simp

theorem header_none (suffix : Text) :
    header suffix none = frameworkLine ++ '\n' :: decorator suffix :=
  cut_lines suffix marker (by decide) (by decide)

theorem header_some (suffix className specifier : Text) :
    header suffix (some (className, specifier)) =
      frameworkLine ++ '\n' :: (hostImport className specifier ++ '\n' :: decorator suffix) :=
  (cut_lines suffix marker (by decide) (by decide)).trans (List.append_assoc _ _ _)

theorem templateOffset?_header {suffix : Text} (plain : includes suffix marker = false)
    {host : Option (Text × Text)}
    (free : ∀ h ∈ host, includes (hostImport h.1 h.2) marker = false) (rest : Text) :
    templateOffset? (header suffix host ++ rest) = some (header suffix host).length := by
  have marked := find?_marker_decorator plain rest
  have below := marker_le_decorator suffix
  have framework : backtick ∉ frameworkLine := by decide
  cases host with
  | none =>
    rw [header_none, List.append_assoc, List.cons_append, templateOffset?,
      find?_marker_plain_line _ framework, marked]
    simp only [Option.map_some, List.length_append, List.length_cons]
    exact congrArg some (by omega)
  | some host =>
    obtain ⟨className, specifier⟩ := host
    have absent : find? marker (hostImport className specifier) = none := by
      simpa [includes] using free _ rfl
    rw [header_some, List.append_assoc, List.cons_append, List.append_assoc, List.cons_append,
      templateOffset?, find?_marker_plain_line _ framework, find?_marker_line _ absent, marked]
    simp only [Option.map_some, List.length_append, List.length_cons]
    exact congrArg some (by omega)

theorem mem_of_mem_withoutFrom {part : Text} {skip : Nat} {t : Text} {c : Char}
    (member : c ∈ withoutFrom part skip t) : c ∈ t := by
  fun_induction withoutFrom part skip t with
  | case1 => exact member
  | case2 skip d rest ih => exact List.mem_cons_of_mem d (ih member)
  | case3 d rest starts ih => exact List.mem_cons_of_mem d (ih member)
  | case4 d rest starts ih =>
    rcases List.mem_cons.mp member with rfl | member
    · exact List.mem_cons_self
    · exact List.mem_cons_of_mem d (ih member)

theorem not_mem_hex {c : Char} (plain : ∀ n, Nat.digitChar n ≠ c) (width n : Nat) :
    c ∉ hex width n := by
  induction width generalizing n with
  | zero => simp [hex]
  | succ width ih => simp [hex, hexDigit, ih, (plain (n % 16)).symm]

theorem not_mem_fileName {c : Char} (plain : ∀ n, Nat.digitChar n ≠ c) (notDigit : c.isDigit = false)
    (absent : c ∉ namePart ++ ['-'] ++ ".component.ts".toList) (clock serial : Nat) :
    c ∉ fileName clock serial := by
  intro named
  have digits : c ∉ ofNat clock := by
    intro digit
    have isDigit := Nat.isDigit_of_mem_toDigits (by decide) (by decide) digit
    rw [notDigit] at isDigit
    cases isDigit
  rw [List.mem_append, List.mem_append] at absent
  unfold fileName at named
  rw [List.mem_append, List.mem_append, List.mem_append, List.mem_append] at named
  rcases named with (((front | clock) | dash) | serial) | ending
  · exact absent (.inl (.inl front))
  · exact digits clock
  · exact absent (.inl (.inr dash))
  · exact not_mem_hex plain _ _ serial
  · exact absent (.inr ending)

theorem suffix_fileName_free (clock serial : Nat) :
    includes (suffix (fileName clock serial)) marker = false := by
  apply includes_eq_false_of_not_mem (c := backtick) (by decide)
  intro member
  have named : backtick ∈ fileName clock serial :=
    (List.takeWhile_subset _) (mem_of_mem_withoutFrom member)
  exact not_mem_fileName (fun _ => Nat.digitChar_ne backtick (by decide)) (by decide) (by decide)
    clock serial named

end TemplateTypes.Probe
