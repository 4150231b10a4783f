import Chassis.Net.Url
import Chassis.Proofs.Net.Percent
import Mathlib.Data.List.DropRight

/-!
# Going on with an address

> **an address with a slash and more text behind it is the address with that text read from its
> directory on** (`Net.Url.ofText?_append`).

The reader goes over an address several times: for the characters that count, for the scheme, the
fragment, the query, the host, and last for the segments. Each pass is a split at the first place
where something stands, so each has one lemma that says what it makes of `cs ++ ds`: if what it
looks for stands in `cs`, it never gets to `ds`. The segments are the one pass with a state, the
segments so far; the two kinds of dots change it, and the last segment is treated apart because dots
leave an empty one there.
-/

set_option autoImplicit false

namespace Chassis.Net.Url

/-! ## Passes that stop at a character -/

section

variable {α : Type} {p : α → Bool} {cs : List α}

theorem takeWhile_append_of_exists (h : ∃ c ∈ cs, ¬ p c = true) (ds : List α) :
    (cs ++ ds).takeWhile p = cs.takeWhile p := by
  rw [List.takeWhile_append, if_neg]
  intro hlength
  obtain ⟨c, hc, hp⟩ := h
  have hself : cs.takeWhile p = cs := (List.takeWhile_prefix p).eq_of_length hlength
  exact hp (List.takeWhile_eq_self_iff.1 hself c hc)

theorem dropWhile_append_of_exists (h : ∃ c ∈ cs, ¬ p c = true) (ds : List α) :
    (cs ++ ds).dropWhile p = cs.dropWhile p ++ ds := by
  rw [List.dropWhile_append, if_neg]
  rw [List.isEmpty_iff, List.dropWhile_eq_nil_iff]
  obtain ⟨c, hc, hp⟩ := h
  exact fun hall => hp (hall c hc)

theorem takeWhile_append_stop {stop : α} (h : ¬ p stop = true) (cs ds : List α) :
    (cs ++ stop :: ds).takeWhile p = cs.takeWhile p := by
  rw [List.append_cons, takeWhile_append_of_exists ⟨stop, by simp, h⟩, List.takeWhile_append]
  split
  case isTrue hlength =>
    rw [List.takeWhile_cons_of_neg h, List.append_nil,
      (List.takeWhile_prefix p).eq_of_length hlength]
  case isFalse => rfl

theorem dropWhile_append_stop {stop : α} (h : ¬ p stop = true) (cs ds : List α) :
    (cs ++ stop :: ds).dropWhile p = cs.dropWhile p ++ stop :: ds := by
  rw [List.append_cons, dropWhile_append_of_exists ⟨stop, by simp, h⟩, List.dropWhile_append]
  split
  case isTrue hempty =>
    rw [List.dropWhile_cons_of_neg h, List.isEmpty_iff.1 hempty, List.nil_append,
      List.singleton_append]
  case isFalse => rw [List.append_assoc, List.singleton_append]

end

theorem forall_ne_of_not_mem {mark : Char} {cs : List Char} (h : mark ∉ cs) :
    ∀ c ∈ cs, (c != mark) = true := by
  rintro c hc
  rw [bne_iff_ne]
  rintro rfl
  exact h hc

theorem takeWhile_eq_self_of_not_mem {mark : Char} {cs : List Char} (h : mark ∉ cs) :
    cs.takeWhile (· != mark) = cs :=
  List.takeWhile_eq_self_iff.2 (forall_ne_of_not_mem h)

theorem exists_eq_of_mem {mark : Char} {cs : List Char} (h : mark ∈ cs) :
    ∃ c ∈ cs, ¬ (c != mark) = true :=
  ⟨mark, h, by simp⟩

section

variable {mark : Char} {isEscaped : Char → Bool} {cs : List Char}

theorem after?_eq_none_iff : after? mark isEscaped cs = none ↔ mark ∉ cs := by
  rw [after?]
  split
  case isTrue h => exact iff_of_false nofun (not_not_intro (List.contains_iff_mem.1 h))
  case isFalse h => exact iff_of_true rfl (mt List.contains_iff_mem.2 h)

theorem after?_append (h : mark ∉ cs) (ds : List Char) :
    after? mark isEscaped (cs ++ ds) = after? mark isEscaped ds := by
  have hcontains : (cs ++ ds).contains mark = ds.contains mark := by
    rw [List.contains_eq_mem, List.contains_eq_mem, decide_eq_decide, List.mem_append,
      or_iff_right h]
  rw [after?, after?, hcontains, List.dropWhile_append_of_pos (forall_ne_of_not_mem h)]

end

/-! ## The characters that count -/

def isOuter (c : Char) : Bool := c.toNat ≤ 0x20

def isInner (c : Char) : Bool := c != '\t' && c != '\n' && c != '\r'

/-- The text does not end in a space or a control character. -/
def EndsVisibly (cs : List Char) : Prop := ∀ c, cs.getLast? = some c → isOuter c = false

/-- The characters that count at the end of an address. -/
def relevantEnd (cs : List Char) : List Char :=
  (cs.rdropWhile isOuter).filter isInner

theorem relevant_eq (cs : List Char) : relevant cs = relevantEnd (cs.dropWhile isOuter) := rfl

theorem isInner_of_not_isOuter {c : Char} (h : isOuter c = false) : isInner c = true := by
  simp only [isInner, Bool.and_eq_true, bne_iff_ne]
  refine ⟨⟨?_, ?_⟩, ?_⟩ <;> rintro rfl <;> exact absurd h (by decide)

/-- Nothing in front of a visible character is at the end. -/
theorem relevantEnd_append {c : Char} (hc : isOuter c = false) (cs ds : List Char) :
    relevantEnd (cs ++ c :: ds) = cs.filter isInner ++ c :: relevantEnd ds := by
  have hdrop : (cs ++ c :: ds).rdropWhile isOuter = cs ++ c :: ds.rdropWhile isOuter := by
    rw [List.rdropWhile, List.rdropWhile, List.reverse_append, List.reverse_cons, List.append_assoc,
      List.dropWhile_append]
    split
    case isTrue hempty =>
      rw [List.isEmpty_iff.1 hempty, List.singleton_append,
        List.dropWhile_cons_of_neg (by rw [hc]; exact Bool.false_ne_true)]
      simp
    case isFalse => simp
  rw [relevantEnd, hdrop, List.filter_append,
    List.filter_cons_of_pos (isInner_of_not_isOuter hc), relevantEnd]

theorem relevantEnd_concat {c : Char} (hc : isOuter c = false) (cs : List Char) :
    relevantEnd (cs ++ [c]) = cs.filter isInner ++ [c] :=
  relevantEnd_append hc cs []

theorem exists_dropWhile_concat {c : Char} (hc : isOuter c = false) (cs : List Char) :
    ∃ cs', (cs ++ [c]).dropWhile isOuter = cs' ++ [c] := by
  rw [List.dropWhile_append]
  split
  · exact ⟨[], List.dropWhile_cons_of_neg (by rw [hc]; exact Bool.false_ne_true)⟩
  · exact ⟨_, rfl⟩

theorem exists_relevant_concat {c : Char} (hc : isOuter c = false) (cs : List Char) :
    ∃ cs', relevant (cs ++ [c]) = cs' ++ [c] := by
  obtain ⟨cs', hcs'⟩ := exists_dropWhile_concat hc cs
  exact ⟨cs'.filter isInner, by rw [relevant_eq, hcs', relevantEnd_concat hc]⟩

/-- All that counts in an address counts when it goes on. -/
theorem relevant_append {c : Char} (hc : isOuter c = false) (cs ds : List Char) :
    relevant (cs ++ c :: ds) = relevant (cs ++ [c]) ++ relevantEnd ds := by
  have hexists : ∃ c' ∈ cs ++ [c], ¬ isOuter c' = true :=
    ⟨c, List.mem_append_right cs List.mem_cons_self, by rw [hc]; exact Bool.false_ne_true⟩
  obtain ⟨cs', hcs'⟩ := exists_dropWhile_concat hc cs
  rw [relevant_eq, relevant_eq, List.append_cons, dropWhile_append_of_exists hexists, hcs',
    relevantEnd_concat hc, List.append_assoc, List.singleton_append, relevantEnd_append hc,
    List.append_assoc, List.singleton_append]

theorem relevantEnd_sublist (cs : List Char) : (relevantEnd cs).Sublist cs :=
  List.filter_sublist.trans (List.rdropWhile_prefix isOuter cs).sublist

/-- All characters count exactly when none of them is a tab or a line break and the last is
visible. -/
theorem relevantEnd_eq_self_iff {cs : List Char} :
    relevantEnd cs = cs ↔ (∀ c ∈ cs, isInner c = true) ∧ EndsVisibly cs := by
  constructor
  · intro h
    have hlength := congrArg List.length h
    have hfilter :
        ((cs.rdropWhile isOuter).filter isInner).length ≤ (cs.rdropWhile isOuter).length :=
      List.length_filter_le isInner _
    have hdrop : (cs.rdropWhile isOuter).length ≤ cs.length :=
      (List.rdropWhile_prefix isOuter cs).length_le
    rw [relevantEnd] at h hlength
    have hkept : cs.rdropWhile isOuter = cs :=
      (List.rdropWhile_prefix isOuter cs).eq_of_length (by omega)
    rw [hkept, List.filter_eq_self] at h
    refine ⟨h, fun c hc => ?_⟩
    obtain ⟨init, rfl⟩ := List.getLast?_eq_some_iff.1 hc
    have hne : init ++ [c] ≠ [] := List.append_ne_nil_of_right_ne_nil _ (List.cons_ne_nil c [])
    have := List.rdropWhile_eq_self_iff.1 hkept hne
    simpa using this
  · rintro ⟨hinner, hends⟩
    rcases List.eq_nil_or_concat cs with rfl | ⟨init, c, rfl⟩
    · rfl
    · rw [List.concat_eq_append] at hinner hends ⊢
      rw [relevantEnd_concat (hends c List.getLast?_concat),
        List.filter_eq_self.2 fun d hd => hinner d (List.mem_append_left _ hd)]

/-! ## The scheme -/

theorem dropScheme?_append {cs rest : List Char} {isSecure : Bool}
    (h : dropScheme? cs = some (isSecure, rest)) (hrest : rest ≠ []) (ds : List Char) :
    dropScheme? (cs ++ ds) = some (isSecure, rest ++ ds) := by
  unfold dropScheme? at h ⊢
  by_cases hcolon : ':' ∈ cs
  case neg =>
    rw [if_pos (by simpa using hcolon)] at h
    cases h
  have hexists := exists_eq_of_mem hcolon
  obtain ⟨c, afterScheme, hdrop⟩ : ∃ c afterScheme, cs.dropWhile (· != ':') = c :: afterScheme := by
    refine List.exists_cons_of_ne_nil fun hnil => ?_
    obtain ⟨c, hc, hne⟩ := hexists
    exact hne (List.dropWhile_eq_nil_iff.1 hnil c hc)
  simp only [hdrop, List.drop_succ_cons, List.drop_zero] at h
  simp only [takeWhile_append_of_exists hexists, dropWhile_append_of_exists hexists, hdrop,
    List.cons_append, List.drop_succ_cons, List.drop_zero]
  have hcontains : cs.contains ':' = true := List.contains_iff_mem.2 hcolon
  have hcontains' : (cs ++ ds).contains ':' = true :=
    List.contains_iff_mem.2 (List.mem_append_left ds hcolon)
  simp only [hcontains, hcontains', Bool.not_true, Bool.false_eq_true, if_false] at h ⊢
  have happend : ∀ {rest' : List Char},
      afterScheme.dropWhile (fun c => c == '/' || c == '\\') = rest' → rest' ≠ [] →
      (afterScheme ++ ds).dropWhile (fun c => c == '/' || c == '\\') = rest' ++ ds := by
    rintro rest' rfl hne
    rw [List.dropWhile_append, if_neg (by simpa using hne)]
  split at h
  case isTrue hhttp =>
    obtain ⟨rfl, hrest'⟩ := Prod.mk.inj (Option.some.inj h)
    rw [if_pos hhttp, happend hrest' hrest]
  case isFalse hhttp =>
    split at h
    case isTrue hhttps =>
      obtain ⟨rfl, hrest'⟩ := Prod.mk.inj (Option.some.inj h)
      rw [if_neg hhttp, if_pos hhttps, happend hrest' hrest]
    case isFalse => cases h

/-! ## Segments -/

/-- A backslash is a slash. -/
def slashes (cs : List Char) : List Char := cs.map fun c => if c == '\\' then '/' else c

/-- What is above the next segment, behind one that is not the last; dots leave none of their own.
-/
def enter (above : List String) (segment : List Char) : List String :=
  match dots? segment with
  | none => String.ofList (Percent.encode isEscapedInPath segment) :: above
  | some .one => above
  | some .two => above.drop 1

/-- The last segment of a path; dots leave an empty one. -/
def lastSegment (segment : List Char) : String :=
  match dots? segment with
  | none => String.ofList (Percent.encode isEscapedInPath segment)
  | some _ => ""

theorem resolve_cons {segments : List (List Char)} (h : segments ≠ []) (above : List String)
    (segment : List Char) :
    resolve above (segment :: segments) = resolve (enter above segment) segments := by
  have hempty : segments.isEmpty = false := by simpa using h
  rw [resolve, enter, hempty]
  rcases dots? segment with _ | _ | _ <;> rfl

/-- Segments in front only change what is above those behind. -/
theorem resolve_append {behind : List (List Char)} (h : behind ≠ []) (above : List String)
    (inFront : List (List Char)) :
    resolve above (inFront ++ behind) = resolve (inFront.foldl enter above) behind := by
  induction inFront generalizing above with
  | nil => rfl
  | cons segment inFront ih =>
    rw [List.cons_append, resolve_cons (List.append_ne_nil_of_right_ne_nil _ h), ih,
      List.foldl_cons]

theorem resolve_singleton (above : List String) (segment : List Char) :
    resolve above [segment] =
      match dots? segment with
      | none => (enter above segment).reverse
      | some _ => (enter above segment).reverse ++ [""] := by
  rw [resolve, enter]
  rcases dots? segment with _ | _ | _ <;> simp [resolve]

/-- What a path ends in comes from its last segment alone. -/
theorem getLast?_resolve (above : List String) (inFront : List (List Char)) (segment : List Char) :
    (resolve above (inFront ++ [segment])).getLast? = some (lastSegment segment) := by
  rw [resolve_append (List.cons_ne_nil segment []), resolve_singleton, lastSegment, enter]
  rcases dots? segment with _ | _ | _ <;> simp

/-- The segments of a path without the empty one at its end. -/
def directoryOf (segments : List String) : List String :=
  if segments.getLast? = some "" then segments.dropLast else segments

/-- The directory that an address leads to. -/
def directory (u : Url) : List String := directoryOf u.segments

theorem encode_ne_empty {segment : List Char} (h : segment ≠ []) :
    String.ofList (Percent.encode isEscapedInPath segment) ≠ "" := by
  intro hempty
  have hnil : Percent.encode isEscapedInPath segment = [] := by
    simpa using congrArg String.toList hempty
  exact h (Percent.encode_eq_nil_iff.1 hnil)

/-- A path goes on behind the directory that it leads to. -/
theorem directoryOf_resolve {segment : List Char} (h : segment ≠ []) (above : List String)
    (inFront : List (List Char)) :
    directoryOf (resolve above (inFront ++ [segment])) =
      ((inFront ++ [segment]).foldl enter above).reverse := by
  rw [directoryOf, getLast?_resolve, lastSegment, resolve_append (List.cons_ne_nil segment []),
    resolve_singleton, List.foldl_append, List.foldl_cons, List.foldl_nil]
  cases hdots : dots? segment with
  | none => simp only [Option.some.injEq, if_neg (encode_ne_empty h)]
  | some => simp

theorem slashes_append (cs ds : List Char) : slashes (cs ++ ds) = slashes cs ++ slashes ds :=
  List.map_append

theorem slashes_cons_slash (cs : List Char) : slashes ('/' :: cs) = '/' :: slashes cs := rfl

/-- A text that does not end in the separator does not end in an empty part. -/
theorem exists_split_concat {separator c : Char} (hc : c ≠ separator) (cs : List Char) :
    ∃ parts part, Text.split separator (cs ++ [c]) = parts ++ [part] ∧ part ≠ [] := by
  rcases Text.split_cases separator (cs ++ [c]) with ⟨-, h⟩ | ⟨inFront, part, hcs, h⟩
  · exact ⟨[], cs ++ [c], h, List.append_ne_nil_of_right_ne_nil cs (List.cons_ne_nil c [])⟩
  · refine ⟨_, part, h, ?_⟩
    rintro rfl
    exact hc (by simpa using congrArg List.getLast? hcs)

/-- The address of a host alone leads to no directory. -/
theorem directoryOf_pathSegments_nil : directoryOf (pathSegments []) = [] := by
  decide +kernel

theorem pathSegments_cons (c : Char) (cs : List Char) :
    pathSegments (c :: cs) = resolve [] (Text.split '/' (slashes cs)) := by
  rw [pathSegments, List.map_cons, List.drop_succ_cons, List.drop_zero, slashes]

/-- **A path goes on behind the directory that it leads to**, if it does not end in a slash. -/
theorem pathSegments_append {last : Char} (hslash : last ≠ '/') (hback : last ≠ '\\') (c : Char)
    (cs ds : List Char) :
    pathSegments (c :: (cs ++ [last]) ++ '/' :: ds) =
      resolve (directoryOf (pathSegments (c :: (cs ++ [last])))).reverse
        (Text.split '/' (slashes ds)) := by
  have hlast : slashes (cs ++ [last]) = slashes cs ++ [last] := by
    simp [slashes, hback]
  obtain ⟨parts, part, hsplit, hpart⟩ := exists_split_concat hslash (slashes cs)
  rw [List.cons_append, pathSegments_cons, pathSegments_cons, slashes_append, hlast,
    slashes_cons_slash, Text.split_append_cons, hsplit, directoryOf_resolve hpart,
    List.reverse_reverse, resolve_append (Text.split_ne_nil '/' _)]

/-! ## Addresses -/

/-- What stands between the scheme and the query. -/
def beforeQuery (rest : List Char) : List Char :=
  (rest.takeWhile (· != '#')).takeWhile (· != '?')

def isAuthority (c : Char) : Bool := c != '/' && c != '\\'

/-- What is read behind the scheme. -/
def ofRest? [HostNames] (isSecure : Bool) (rest : List Char) : Option Url :=
  (authority? isSecure ((beforeQuery rest).takeWhile isAuthority)).map fun authority =>
    { isSecure, userInfo := authority.1, host := authority.2.1, port := authority.2.2
      segments := pathSegments ((beforeQuery rest).dropWhile isAuthority)
      query := after? '?' isEscapedInQuery (rest.takeWhile (· != '#'))
      fragment := after? '#' isEscapedInFragment rest }

theorem ofText?_eq [HostNames] (s : String) :
    ofText? s = (dropScheme? (relevant s.toList)).bind fun p => ofRest? p.1 p.2 := by
  unfold ofText?
  cases dropScheme? (relevant s.toList) with
  | none => rfl
  | some p =>
    simp only [Option.bind_eq_bind, Option.bind_some, ofRest?]
    change (authority? p.1 ((beforeQuery p.2).takeWhile isAuthority)).bind _ = _
    cases authority? p.1 ((beforeQuery p.2).takeWhile isAuthority) <;> rfl

/-- The address that goes on with a path. -/
def continued (u : Url) (path : List Char) : Url :=
  { u with
    segments := resolve u.directory.reverse (Text.split '/' (slashes (beforeQuery path)))
    query := after? '?' isEscapedInQuery (path.takeWhile (· != '#'))
    fragment := after? '#' isEscapedInFragment path }

theorem beforeQuery_append {cs : List Char} (hquery : '?' ∉ cs) (hfragment : '#' ∉ cs)
    (ds : List Char) : beforeQuery (cs ++ ds) = cs ++ beforeQuery ds := by
  rw [beforeQuery, List.takeWhile_append_of_pos (forall_ne_of_not_mem hfragment),
    List.takeWhile_append_of_pos (forall_ne_of_not_mem hquery), beforeQuery]

theorem beforeQuery_eq_self {cs : List Char} (hquery : '?' ∉ cs) (hfragment : '#' ∉ cs) :
    beforeQuery cs = cs := by
  rw [beforeQuery, takeWhile_eq_self_of_not_mem hfragment, takeWhile_eq_self_of_not_mem hquery]

/-- The text ends in a visible character that is no slash. -/
def EndsInName (cs : List Char) : Prop :=
  ∃ init last, cs = init ++ [last] ∧ isOuter last = false ∧ last ≠ '/' ∧ last ≠ '\\'

theorem EndsInName.of_suffix {cs ds : List Char} (h : EndsInName cs) (hsuffix : ds <:+ cs)
    (hne : ds ≠ []) : EndsInName ds := by
  obtain ⟨init, last, rfl, hlast⟩ := h
  obtain ⟨init', last', rfl⟩ := (List.eq_nil_or_concat ds).resolve_left hne
  obtain ⟨inFront, happend⟩ := hsuffix
  have hlast' : last' = last := by simpa using congrArg List.getLast? happend
  exact ⟨init', last, by rw [List.concat_eq_append, hlast'], hlast⟩

/-- What stands behind the host goes on behind its own directory. -/
theorem pathSegments_dropWhile_append {rest : List Char} (hends : EndsInName rest)
    (ds : List Char) :
    pathSegments (rest.dropWhile isAuthority ++ '/' :: ds) =
      resolve (directoryOf (pathSegments (rest.dropWhile isAuthority))).reverse
        (Text.split '/' (slashes ds)) := by
  cases hpath : rest.dropWhile isAuthority with
  | nil => rw [List.nil_append, pathSegments_cons, directoryOf_pathSegments_nil, List.reverse_nil]
  | cons c cs =>
    have hends' : EndsInName (c :: cs) :=
      hpath ▸ hends.of_suffix (List.dropWhile_suffix isAuthority) (by simp [hpath])
    obtain ⟨init, last, heq, -, hslash, hback⟩ := hends'
    cases init with
    | nil =>
      -- The path starts with a slash, so it cannot be its own last character.
      obtain ⟨rfl, -⟩ := List.cons.inj heq
      have hstop : isAuthority c = false := by
        simpa [hpath] using List.head_dropWhile_not (p := isAuthority) (l := rest) (by simp [hpath])
      simp [isAuthority, hslash, hback] at hstop
    | cons c' cs' =>
      obtain ⟨rfl, rfl⟩ := List.cons.inj heq
      exact pathSegments_append hslash hback c cs' ds

/-- What is left of an address without its scheme is its end. -/
theorem suffix_of_dropScheme? {cs rest : List Char} {isSecure : Bool}
    (h : dropScheme? cs = some (isSecure, rest)) : rest <:+ cs := by
  have hsuffix : ((cs.dropWhile (· != ':')).drop 1).dropWhile
      (fun c => c == '/' || c == '\\') <:+ cs :=
    (List.dropWhile_suffix _).trans ((List.drop_suffix 1 _).trans (List.dropWhile_suffix _))
  unfold dropScheme? at h
  simp only at h
  split at h
  · cases h
  split at h
  · exact (Prod.mk.inj (Option.some.inj h)).2 ▸ hsuffix
  split at h
  · exact (Prod.mk.inj (Option.some.inj h)).2 ▸ hsuffix
  · cases h

section Append

variable [HostNames] {isSecure : Bool} {rest : List Char} {base : Url}

/-- What is read behind the scheme goes on with a path, if it stops before a query. -/
theorem ofRest?_append (h : ofRest? isSecure rest = some base) (hends : EndsInName rest)
    (hquery : base.query = none) (hfragment : base.fragment = none) (path : List Char) :
    ofRest? isSecure (rest ++ '/' :: path) = some (base.continued path) := by
  obtain ⟨authority, hauthority, rfl⟩ := Option.map_eq_some_iff.1 h
  have hnoFragment : '#' ∉ rest := after?_eq_none_iff.1 hfragment
  have hnoQuery : '?' ∉ rest :=
    takeWhile_eq_self_of_not_mem hnoFragment ▸ after?_eq_none_iff.1 hquery
  have hbefore : beforeQuery rest = rest := beforeQuery_eq_self hnoQuery hnoFragment
  have hbefore' : beforeQuery (rest ++ '/' :: path) = rest ++ '/' :: beforeQuery path := by
    rw [List.append_cons, beforeQuery_append (by simpa using hnoQuery) (by simpa using hnoFragment),
      List.append_assoc, List.singleton_append]
  have hfragment' : after? '#' isEscapedInFragment (rest ++ '/' :: path) =
      after? '#' isEscapedInFragment path := by
    rw [List.append_cons, after?_append (by simpa using hnoFragment)]
  have hquery' : after? '?' isEscapedInQuery ((rest ++ '/' :: path).takeWhile (· != '#')) =
      after? '?' isEscapedInQuery (path.takeWhile (· != '#')) := by
    rw [List.append_cons,
      List.takeWhile_append_of_pos (forall_ne_of_not_mem (by simpa using hnoFragment)),
      after?_append (by simpa using hnoQuery)]
  have hslash : ¬ isAuthority '/' = true := by decide
  rw [hbefore] at hauthority
  rw [ofRest?, hbefore', takeWhile_append_stop hslash, dropWhile_append_stop hslash, hauthority,
    pathSegments_dropWhile_append hends, hquery', hfragment', Option.map_some, continued, directory,
    hbefore]

/-- Behind a query or a fragment, an address goes on as a part of it. -/
theorem exists_ofRest?_append (h : ofRest? isSecure rest = some base)
    (hmarked : ¬ (base.query = none ∧ base.fragment = none)) (path : List Char) :
    ∃ u, ofRest? isSecure (rest ++ path) = some u ∧ ¬ (u.query = none ∧ u.fragment = none) := by
  obtain ⟨authority, hauthority, rfl⟩ := Option.map_eq_some_iff.1 h
  simp only [after?_eq_none_iff] at hmarked
  have hbefore : beforeQuery (rest ++ path) = beforeQuery rest := by
    by_cases hfragment : '#' ∈ rest
    · rw [beforeQuery, takeWhile_append_of_exists (exists_eq_of_mem hfragment), beforeQuery]
    · have hwhole : rest.takeWhile (· != '#') = rest := takeWhile_eq_self_of_not_mem hfragment
      have hquery : '?' ∈ rest := by
        by_contra hquery
        exact hmarked ⟨by rwa [hwhole], hfragment⟩
      rw [beforeQuery, beforeQuery, hwhole,
        List.takeWhile_append_of_pos (forall_ne_of_not_mem hfragment),
        takeWhile_append_of_exists (exists_eq_of_mem hquery)]
  refine ⟨_, by rw [ofRest?, hbefore, hauthority, Option.map_some], ?_⟩
  simp only [after?_eq_none_iff]
  rintro ⟨hquery, hfragment⟩
  have hfragment' : '#' ∉ rest := fun hmem => hfragment (List.mem_append_left _ hmem)
  rw [List.takeWhile_append_of_pos (forall_ne_of_not_mem hfragment')] at hquery
  refine hmarked ⟨fun hmem => hquery (List.mem_append_left _ ?_), hfragment'⟩
  exact (List.takeWhile_prefix _).subset hmem

/-- An address without a host cannot be read. -/
theorem ofRest?_nil : ofRest? isSecure [] = none := rfl

/-- **An address with a slash and more text behind it is the address with that text read from its
directory on**, or has the text in its query or its fragment. -/
theorem ofText?_append {cs : List Char} (h : ofText? (String.ofList cs) = some base)
    (hends : EndsInName cs) (path : List Char) :
    ∃ u, ofText? (String.ofList (cs ++ '/' :: path)) = some u ∧
      (base.query = none ∧ base.fragment = none → u = base.continued (relevantEnd path)) ∧
      (¬ (base.query = none ∧ base.fragment = none) → ¬ (u.query = none ∧ u.fragment = none)) := by
  rw [ofText?_eq, String.toList_ofList] at h ⊢
  obtain ⟨⟨isSecure, rest⟩, hscheme, hrest⟩ := Option.bind_eq_some_iff.1 h
  have hne : rest ≠ [] := by
    rintro rfl
    rw [ofRest?_nil] at hrest
    cases hrest
  obtain ⟨init, last, rfl, hvisible, hslash⟩ := hends
  have hends : EndsInName (relevant (init ++ [last])) := by
    obtain ⟨init', heq⟩ := exists_relevant_concat hvisible init
    exact ⟨init', last, heq, hvisible, hslash⟩
  have happend : relevant (init ++ [last] ++ '/' :: path) =
      relevant (init ++ [last]) ++ '/' :: relevantEnd path := by
    rw [List.append_assoc, List.singleton_append, relevant_append hvisible]
    congr 1
    exact relevantEnd_append (by decide) [] path
  rw [happend, dropScheme?_append hscheme hne]
  simp only [Option.bind_some]
  by_cases hclean : base.query = none ∧ base.fragment = none
  · exact ⟨_, ofRest?_append hrest (hends.of_suffix (suffix_of_dropScheme? hscheme) hne) hclean.1
      hclean.2 _, fun _ => rfl, fun h => absurd hclean h⟩
  · obtain ⟨u, hu, hmarked⟩ := exists_ofRest?_append hrest hclean ('/' :: relevantEnd path)
    exact ⟨u, hu, fun h => absurd h hclean, fun _ => hmarked⟩

end Append

end Chassis.Net.Url
