import Soapy.Lib.Bytes
import Soapy.Lib.Find

/-! # SoapyURL

URLs as texts: `scheme://node:service`, with a node that contains a colon in
brackets. Name lookup and socket addresses are not modelled.
-/

namespace Soapy.Remote

open Lib

structure SoapyURL where
  scheme : Bytes
  node : Bytes
  service : Bytes
  deriving DecidableEq

namespace SoapyURL

/-- `url.find("://")` and the `substr` calls on both sides of it. -/
def splitScheme : Bytes → Option (Bytes × Bytes)
  | [] => none
  | ch :: rest =>
    if (ascii "://").isPrefixOf (ch :: rest) then some ([], (ch :: rest).drop 3)
    else (splitScheme rest).map (fun split => (ch :: split.1, split.2))

def scan (inBracket inService : Bool) (node service : Bytes) : Bytes → Bytes × Bytes
  | [] => (node, service)
  | ch :: rest =>
    if inBracket ∧ [ch] = ascii "]" then scan false inService node service rest
    else if ¬ inBracket ∧ [ch] = ascii "[" then scan true inService node service rest
    else if inBracket then scan inBracket inService (node ++ [ch]) service rest
    else if inService then scan inBracket inService node (service ++ [ch]) rest
    else if [ch] = ascii ":" then scan inBracket true node service rest
    else scan inBracket inService (node ++ [ch]) service rest

/-- `SoapyURL(const std::string &url)`. -/
def parse (url : Bytes) : SoapyURL :=
  let (scheme, urlRest) := (splitScheme url).getD ([], url)
  let (node, service) := scan false false [] [] urlRest
  ⟨scheme, node, service⟩

def toString (u : SoapyURL) : Bytes :=
  (if u.scheme.isEmpty then [] else u.scheme ++ ascii "://") ++
    (if u.node.any (fun ch => [ch] = ascii ":") then ascii "[" ++ u.node ++ ascii "]" else u.node) ++
    (if u.service.isEmpty then [] else ascii ":" ++ u.service)

theorem splitScheme_eq (url : Bytes) :
    splitScheme url = (find (ascii "://") url).map fun pos => (url.take pos, url.drop (pos + 3)) := by
  induction url with
  | nil => rfl
  | cons ch rest ih =>
    rw [splitScheme, find]
    split
    · rfl
    · rw [ih, Option.map_map, Option.map_map]
      rfl

theorem parse_of_found {url scheme urlRest : Bytes}
    (found : FoundAt (ascii "://") url scheme urlRest) :
    parse url = ⟨scheme, (scan false false [] [] urlRest).1, (scan false false [] [] urlRest).2⟩ := by
  have place : find (ascii "://") url = some scheme.length :=
    find_eq_some_iff.mpr ⟨scheme, urlRest, found, rfl⟩
  have front : url.take scheme.length = scheme := by
    rw [found.whole, List.append_assoc, List.take_left' rfl]
  have back : url.drop (scheme.length + 3) = urlRest := by
    rw [found.whole]
    exact List.drop_left' List.length_append
  rw [parse, splitScheme_eq, place, Option.map_some, front, back]
  rfl

theorem parse_of_none {url : Bytes} (none : ¬ ascii "://" <:+: url) :
    parse url = ⟨[], (scan false false [] [] url).1, (scan false false [] [] url).2⟩ := by
  rw [parse, splitScheme_eq, find_eq_none_iff.mpr none]
  rfl

section Scan

variable {inService : Bool} {node service text : Bytes}

theorem scan_bracket (rest : Bytes) (plain : 93 ∉ text) :
    scan true inService node service (text ++ ascii "]" ++ rest) =
      scan false inService (node ++ text) service rest := by
  have close : ascii "]" = [93] := rfl
  induction text generalizing node with
  | nil => simp [scan, close]
  | cons ch text ih =>
    rw [List.mem_cons, not_or] at plain
    have other : ¬ [ch] = ascii "]" := by
      rw [close, List.cons.injEq]
      exact fun same => plain.1 same.1.symm
    simp only [List.cons_append, scan, other, and_false, if_false, not_true, false_and, if_true]
    rw [ih plain.2, List.append_assoc]
    rfl

theorem scan_node (rest : Bytes) (unbracketed : 91 ∉ text) (plain : 58 ∉ text) :
    scan false false node service (text ++ rest) = scan false false (node ++ text) service rest := by
  induction text generalizing node with
  | nil => simp
  | cons ch text ih =>
    rw [List.mem_cons, not_or] at unbracketed plain
    have noBracket : ¬ [ch] = ascii "[" := fun same => unbracketed.1 (List.cons.inj same).1.symm
    have noColon : ¬ [ch] = ascii ":" := fun same => plain.1 (List.cons.inj same).1.symm
    simp [scan, noBracket, noColon, ih unbracketed.2 plain.2]

theorem scan_service (unbracketed : 91 ∉ text) :
    scan false true node service text = (node, service ++ text) := by
  induction text generalizing service with
  | nil => simp [scan]
  | cons ch text ih =>
    rw [List.mem_cons, not_or] at unbracketed
    have noBracket : ¬ [ch] = ascii "[" := fun same => unbracketed.1 (List.cons.inj same).1.symm
    simp [scan, noBracket, ih unbracketed.2]

end Scan

def nodeText (node : Bytes) : Bytes :=
  if node.any (fun ch => [ch] = ascii ":") then ascii "[" ++ node ++ ascii "]" else node

def serviceText (service : Bytes) : Bytes :=
  if service.isEmpty then [] else ascii ":" ++ service

theorem toString_eq (u : SoapyURL) : u.toString =
    (if u.scheme.isEmpty then [] else u.scheme ++ ascii "://") ++
      (nodeText u.node ++ serviceText u.service) := by
  rw [toString, List.append_assoc]
  rfl

section Texts

variable {node service : Bytes}

theorem nodeText_cases (node : Bytes) :
    (58 ∈ node ∧ nodeText node = ascii "[" ++ node ++ ascii "]") ∨
      (58 ∉ node ∧ nodeText node = node) := by
  have colon : node.any (fun ch => [ch] = ascii ":") = true ↔ 58 ∈ node := by
    simp only [List.any_eq_true, decide_eq_true_eq]
    constructor
    · rintro ⟨ch, member, same⟩
      obtain rfl : ch = 58 := (List.cons.inj same).1
      exact member
    · intro member
      exact ⟨58, member, rfl⟩
  unfold nodeText
  by_cases some : node.any (fun ch => [ch] = ascii ":") = true
  · exact .inl ⟨colon.mp some, if_pos some⟩
  · exact .inr ⟨fun member => some (colon.mpr member), if_neg some⟩

theorem scan_serviceText (unbracketed : 91 ∉ service) :
    scan false false node [] (serviceText service) = (node, service) := by
  cases service with
  | nil => rfl
  | cons ch service => exact scan_service unbracketed

theorem scan_texts (noOpen : 91 ∉ node) (noClose : 93 ∉ node) (unbracketed : 91 ∉ service) :
    scan false false [] [] (nodeText node ++ serviceText service) = (node, service) := by
  rcases nodeText_cases node with ⟨-, written⟩ | ⟨plain, written⟩
  · rw [written, List.append_assoc, List.append_assoc]
    have bracket := @scan_bracket false [] [] node (serviceText service) noClose
    rw [List.append_assoc] at bracket
    exact bracket.trans (scan_serviceText unbracketed)
  · rw [written, scan_node _ noOpen plain]
    exact scan_serviceText unbracketed

theorem no_scheme_in_texts (inNode : ¬ ascii "://" <:+: node)
    (inService : ¬ ascii "://" <:+: ascii ":" ++ service) :
    ¬ ascii "://" <:+: nodeText node ++ serviceText service := by
  have written : ¬ ascii "://" <:+: serviceText service := by
    cases service with
    | nil => decide
    | cons ch service => exact inService
  intro found
  rcases nodeText_cases node with ⟨-, text⟩ | ⟨plain, text⟩
  · rw [text, List.append_assoc] at found
    have bracketed : ascii "://" <:+: [] ++ 91 :: (node ++ (93 :: serviceText service)) := by
      simpa [ascii] using found
    rcases infix_around (by decide) bracketed with empty | inside
    · exact absurd empty (by decide)
    · rcases infix_around (by decide) inside with left | right
      · exact inNode left
      · exact written right
  · rw [text] at found
    exact written (infix_behind plain found)

end Texts

/-- A URL whose parts have no delimiters of their own is read as it was written. -/
theorem parse_toString (u : SoapyURL) (scheme : ¬ ascii "://" <:+: u.scheme)
    (noOpen : ¬ ascii "[" <:+: u.node) (noClose : ¬ ascii "]" <:+: u.node)
    (unbracketed : ¬ ascii "[" <:+: u.service)
    (clear : u.scheme ≠ [] ∨
      ¬ ascii "://" <:+: u.node ∧ ¬ ascii "://" <:+: ascii ":" ++ u.service) :
    parse u.toString = u := by
  have read : scan false false [] [] (nodeText u.node ++ serviceText u.service) =
      (u.node, u.service) := by
    apply scan_texts
    · exact fun member => noOpen ((List.singleton_infix_iff _ _).mpr member)
    · exact fun member => noClose ((List.singleton_infix_iff _ _).mpr member)
    · exact fun member => unbracketed ((List.singleton_infix_iff _ _).mpr member)
  rw [toString_eq]
  by_cases empty : u.scheme = []
  · obtain ⟨inNode, inService⟩ := clear.resolve_left (not_not_intro empty)
    rw [empty, List.isEmpty_nil, if_pos rfl, List.nil_append,
      parse_of_none (no_scheme_in_texts inNode inService), read, ← empty]
  · have found : FoundAt (ascii "://") (u.scheme ++ ascii "://" ++ (nodeText u.node ++
        serviceText u.service)) u.scheme (nodeText u.node ++ serviceText u.service) :=
      foundAt_of_once (by decide) scheme
    rw [if_neg (by rwa [List.isEmpty_iff]), parse_of_found found, read]

theorem parse_toString_scoped :
    parse (SoapyURL.mk (ascii "tcp") (ascii "fe80::1%2") []).toString =
      ⟨ascii "tcp", ascii "fe80::1%2", []⟩ :=
  parse_toString _ (by decide) (by decide) (by decide) (by decide) (.inl (by decide))

end SoapyURL

end Soapy.Remote
