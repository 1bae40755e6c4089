import Mathlib.Data.List.DropRight
import Mathlib.Data.List.Infix
import Relayna.Library.Utf8

/-!
# What servers do to paths before they route

Servers, frameworks and proxies rewrite the path of a request before they look at it: they decode
percent escapes, read backslashes as slashes, drop path parameters, merge slashes, resolve dot
segments, ignore spaces and strip a trailing slash. Which of these a server does, and in which
order, is often unknown, and a filter in front of it that judges the path as it arrived may be
judging another path than the one that is served.

`Plain` describes the paths on which there is nothing to rewrite. `rewriteAll_of_plain` says that
whatever a server applies, in whatever order and however often, it serves a plain path as it is, up
to its trailing slash.
-/

set_option autoImplicit false
set_option relaxedAutoImplicit false

namespace Relayna.Library.PathRewriting

open Relayna.Library.Utf8 (isWhitespace)

/-- A path, as its characters. -/
abbrev Path := List Char

/-! ### Rewritings -/

/-- The value of a hexadecimal digit. -/
def hexValue (digit : Char) : Option ℕ :=
  if '0' ≤ digit ∧ digit ≤ '9' then some (digit.toNat - 48)
  else if 'a' ≤ digit ∧ digit ≤ 'f' then some (digit.toNat - 87)
  else if 'A' ≤ digit ∧ digit ≤ 'F' then some (digit.toNat - 55)
  else none

/-- Percent escapes are replaced by the characters they stand for, once from left to right. -/
def decodePercent : Path → Path
  | '%' :: high :: low :: rest =>
    match hexValue high, hexValue low with
    | some high', some low' => Char.ofNat (16 * high' + low') :: decodePercent rest
    | _, _ => '%' :: decodePercent (high :: low :: rest)
  | character :: rest => character :: decodePercent rest
  | [] => []

/-- Path parameters are dropped, from a semicolon to the next slash. -/
def dropParameters (dropping : Bool) : Path → Path
  | [] => []
  | character :: rest =>
    if character = ';' then dropParameters true rest
    else if character = '/' then '/' :: dropParameters false rest
    else if dropping then dropParameters true rest
    else character :: dropParameters false rest

/-- A run of slashes becomes one slash. -/
def mergeSlashes : Path → Path
  | [] => []
  | character :: rest =>
    if character = '/' ∧ rest.head? = some '/' then mergeSlashes rest
    else character :: mergeSlashes rest

/-- One segment after the segments that are resolved. -/
def resolveSegment (resolved : List Path) (segment : Path) : List Path :=
  if segment = ['.'] then resolved
  else if segment = ['.', '.'] then resolved.dropLast
  else resolved ++ [segment]

def removeDotSegments (path : Path) : Path :=
  ['/'].intercalate ((path.splitOn '/').foldl resolveSegment [])

/-- The path without slashes at its end. -/
def trimEndSlashes (path : Path) : Path :=
  path.rdropWhile (· = '/')

/-- What servers do to paths. -/
inductive Rewriting
  | percent
  | backslashes
  | parameters
  | slashes
  | dotSegments
  | spaces
  | trailingSlash
  deriving DecidableEq

/-- The effect of a rewriting; a path of slashes alone keeps them. -/
def Rewriting.apply : Rewriting → Path → Path
  | .percent => decodePercent
  | .backslashes => List.map fun character ↦ if character = '\\' then '/' else character
  | .parameters => dropParameters false
  | .slashes => mergeSlashes
  | .dotSegments => removeDotSegments
  | .spaces => List.filter fun character ↦ !isWhitespace character
  | .trailingSlash => fun path ↦ if trimEndSlashes path = [] then path else trimEndSlashes path

/-- Several rewritings, one after the other. -/
def rewriteAll (rewritings : List Rewriting) (path : Path) : Path :=
  rewritings.foldl (fun path rewriting ↦ rewriting.apply path) path

/-! ### Plain paths -/

/-- There is nothing to rewrite about a path, except that it may end in a slash. -/
structure Plain (path : Path) : Prop where
  percent : '%' ∉ path
  backslash : '\\' ∉ path
  semicolon : ';' ∉ path
  space : ∀ character ∈ path, isWhitespace character = false
  slashes : ¬ ['/', '/'].IsInfix path
  dots : ∀ segment ∈ path.splitOn '/', segment ≠ ['.'] ∧ segment ≠ ['.', '.']

theorem decodePercent_of_notMem {path : Path} (hpercent : '%' ∉ path) :
    decodePercent path = path := by
  induction path with
  | nil => rfl
  | cons character rest ih =>
    have hne : character ≠ '%' := fun heq ↦ hpercent (heq ▸ List.mem_cons_self)
    rw [decodePercent.eq_2 character rest (fun _ _ _ heq ↦ absurd heq hne),
      ih fun hmem ↦ hpercent (List.mem_cons_of_mem _ hmem)]

theorem dropParameters_of_notMem {path : Path} (hsemicolon : ';' ∉ path) :
    dropParameters false path = path := by
  induction path with
  | nil => rfl
  | cons character rest ih =>
    have hne : character ≠ ';' := fun heq ↦ hsemicolon (heq ▸ List.mem_cons_self)
    have hrest := ih fun hmem ↦ hsemicolon (List.mem_cons_of_mem _ hmem)
    rw [dropParameters, if_neg hne]
    by_cases hslash : character = '/'
    · rw [if_pos hslash, hrest, hslash]
    · rw [if_neg hslash, if_neg Bool.false_ne_true, hrest]

theorem mergeSlashes_of_not_infix {path : Path} (hslashes : ¬ ['/', '/'].IsInfix path) :
    mergeSlashes path = path := by
  induction path with
  | nil => rfl
  | cons character rest ih =>
    have hfirst : ¬ (character = '/' ∧ rest.head? = some '/') := by
      rintro ⟨rfl, hhead⟩
      obtain ⟨others, rfl⟩ := List.head?_eq_some_iff.mp hhead
      exact hslashes ⟨[], others, rfl⟩
    rw [mergeSlashes, if_neg hfirst, ih fun hinside ↦ hslashes (List.infix_cons hinside)]

theorem foldl_resolveSegment {segments : List Path}
    (hdots : ∀ segment ∈ segments, segment ≠ ['.'] ∧ segment ≠ ['.', '.']) :
    ∀ resolved, segments.foldl resolveSegment resolved = resolved ++ segments := by
  induction segments with
  | nil => intro resolved; exact (List.append_nil resolved).symm
  | cons segment rest ih =>
    intro resolved
    obtain ⟨hsegment, hrest⟩ := List.forall_mem_cons.mp hdots
    rw [List.foldl_cons, ih hrest, resolveSegment, if_neg hsegment.1, if_neg hsegment.2,
      List.append_assoc, List.singleton_append]

theorem removeDotSegments_of_plain {path : Path} (hplain : Plain path) :
    removeDotSegments path = path := by
  rw [removeDotSegments, foldl_resolveSegment hplain.dots, List.nil_append,
    List.intercalate_splitOn]

/-- A plain path either does not end in a slash, or ends in a single one behind a plain path. -/
theorem Plain.trim_cases {path : Path} (hplain : Plain path) :
    trimEndSlashes path = path ∨
      Plain (trimEndSlashes path) ∧ path = trimEndSlashes path ++ ['/'] := by
  rcases List.eq_nil_or_concat' path with rfl | ⟨front, last, rfl⟩
  · exact .inl rfl
  · by_cases hlast : last = '/'
    · subst hlast
      right
      have hfront : front.rdropWhile (· = '/') = front := by
        refine List.rdropWhile_eq_self_iff.mpr fun hne hslash ↦ hplain.slashes ?_
        refine ⟨front.dropLast, [], ?_⟩
        have hend : front.getLast hne = '/' := of_decide_eq_true hslash
        rw [List.append_nil, ← List.dropLast_append_getLast hne, hend]
        simp
      have htrim : trimEndSlashes (front ++ ['/']) = front := by
        rw [trimEndSlashes, List.rdropWhile_concat_pos _ _ _ (by decide), hfront]
      rw [htrim]
      refine ⟨⟨?_, ?_, ?_, ?_, ?_, ?_⟩, rfl⟩
      · exact fun hmem ↦ hplain.percent (List.mem_append_left _ hmem)
      · exact fun hmem ↦ hplain.backslash (List.mem_append_left _ hmem)
      · exact fun hmem ↦ hplain.semicolon (List.mem_append_left _ hmem)
      · exact fun character hmem ↦ hplain.space character (List.mem_append_left _ hmem)
      · exact fun hinside ↦ hplain.slashes (hinside.trans (List.infix_append' [] front ['/']))
      · intro segment hsegment
        refine hplain.dots segment ?_
        rw [List.splitOn_append_cons_self]
        exact List.mem_append_left _ hsegment
    · left
      exact List.rdropWhile_concat_neg _ _ _ (by simpa using hlast)

/-- The forms under which a plain path is served: itself, and the path without its trailing slash
where there is more to it. -/
def ServedAs (path served : Path) : Prop :=
  served = path ∨ served = trimEndSlashes path ∧ trimEndSlashes path ≠ []

/-- Assumes: a plain path. A rewriting leaves it, or takes its trailing slash. -/
theorem Plain.apply {path : Path} (hplain : Plain path) (rewriting : Rewriting) :
    Plain (rewriting.apply path) ∧ ServedAs path (rewriting.apply path) := by
  cases rewriting with
  | percent =>
    have hsame := decodePercent_of_notMem hplain.percent
    exact ⟨by rwa [Rewriting.apply, hsame], .inl hsame⟩
  | backslashes =>
    have hsame : Rewriting.apply .backslashes path = path := by
      have hkept : ∀ character ∈ path,
          (if character = '\\' then '/' else character) = id character := by
        intro character hmem
        refine if_neg ?_
        rintro rfl
        exact hplain.backslash hmem
      exact (List.map_congr_left hkept).trans (List.map_id path)
    exact ⟨by rwa [hsame], .inl hsame⟩
  | parameters =>
    have hsame := dropParameters_of_notMem hplain.semicolon
    exact ⟨by rwa [Rewriting.apply, hsame], .inl hsame⟩
  | slashes =>
    have hsame := mergeSlashes_of_not_infix hplain.slashes
    exact ⟨by rwa [Rewriting.apply, hsame], .inl hsame⟩
  | dotSegments =>
    have hsame := removeDotSegments_of_plain hplain
    exact ⟨by rwa [Rewriting.apply, hsame], .inl hsame⟩
  | spaces =>
    have hsame : Rewriting.apply .spaces path = path :=
      List.filter_eq_self.mpr fun character hmem ↦ by simp [hplain.space character hmem]
    exact ⟨by rwa [hsame], .inl hsame⟩
  | trailingSlash =>
    show Plain (if trimEndSlashes path = [] then path else trimEndSlashes path) ∧
      ServedAs path (if trimEndSlashes path = [] then path else trimEndSlashes path)
    split_ifs with hnil
    · exact ⟨hplain, .inl rfl⟩
    · refine ⟨?_, .inr ⟨rfl, hnil⟩⟩
      rcases hplain.trim_cases with hsame | ⟨htrimmed, -⟩
      · rwa [hsame]
      · exact htrimmed

theorem trimEndSlashes_idem (path : Path) :
    trimEndSlashes (trimEndSlashes path) = trimEndSlashes path :=
  List.rdropWhile_idempotent _ _

theorem ServedAs.trans {path middle served : Path} (hmiddle : ServedAs path middle)
    (hserved : ServedAs middle served) : ServedAs path served := by
  rcases hmiddle with rfl | ⟨rfl, hne⟩
  · exact hserved
  · rcases hserved with rfl | ⟨rfl, -⟩
    · exact .inr ⟨rfl, hne⟩
    · exact .inr ⟨trimEndSlashes_idem path, hne⟩

/-- Assumes: a plain path. However it is rewritten, it is served as it is, up to its trailing
slash. -/
theorem rewriteAll_of_plain (rewritings : List Rewriting) :
    ∀ {path : Path}, Plain path →
      Plain (rewriteAll rewritings path) ∧ ServedAs path (rewriteAll rewritings path) := by
  induction rewritings with
  | nil => exact fun hplain ↦ ⟨hplain, .inl rfl⟩
  | cons rewriting rest ih =>
    intro path hplain
    obtain ⟨hnext, hsame⟩ := hplain.apply rewriting
    obtain ⟨hlast, hrest⟩ := ih hnext
    exact ⟨hlast, hsame.trans hrest⟩

end Relayna.Library.PathRewriting
