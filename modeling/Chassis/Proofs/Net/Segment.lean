import Chassis.Proofs.Net.Url
import Mathlib.Tactic.IntervalCases

/-!
# Texts as segments of an address

> **an address that goes on with a text as it is has this text as its last segment exactly when the
> text is plain** (`Net.Url.exists_segment_iff`).

A plain text is one that the reader of an address passes over: nothing in it parts the address,
nothing is dropped from it, it is no dots, and it has no percent group. That such a text is enough
is a run through the passes of the reader. That it is needed is counted: every pass drops characters
or leaves them as they are, the last segment is what stands behind the last slash, and decoding
makes no text longer. So the text can come back out of its segment only if all of it is still there.
-/

set_option autoImplicit false

namespace Chassis.Net.Url

open Percent

/-! ## Dots -/

/-- Lower case does not make an upper-case letter anything but a letter. -/
theorem toLower_cases (c : Char) :
    c.toLower = c ∨ ∃ n, 65 ≤ n ∧ n ≤ 90 ∧ c = Char.ofNat n := by
  by_cases h : c.val ≥ 'A'.val ∧ c.val ≤ 'Z'.val
  · refine .inr ⟨c.toNat, ?_, ?_, (Char.ofNat_toNat c).symm⟩
    · exact UInt32.le_iff_toNat_le.1 h.1
    · exact UInt32.le_iff_toNat_le.1 h.2
  · exact .inl (dif_neg h)

theorem toLower_spec : ∀ n, 65 ≤ n → n ≤ 90 →
    'a' ≤ (Char.ofNat n).toLower ∧ (IsDigit (Char.ofNat n).toLower → IsDigit (Char.ofNat n)) := by
  intro n hl hh
  interval_cases n <;> decide

theorem eq_of_toLower_eq {c d : Char} (h : c.toLower = d) (hd : d < 'a') : c = d := by
  rcases toLower_cases c with hc | ⟨n, hl, hh, rfl⟩
  · exact hc ▸ h
  · exact absurd (h ▸ (toLower_spec n hl hh).1) (Char.not_le.2 hd)

theorem isDigit_of_toLower {c : Char} (h : IsDigit c.toLower) : IsDigit c := by
  rcases toLower_cases c with hc | ⟨n, hl, hh, rfl⟩
  · exact hc ▸ h
  · exact (toLower_spec n hl hh).2 h

theorem startsDigits_of_map_toLower {cs : List Char} (h : StartsDigits (cs.map Char.toLower)) :
    StartsDigits cs := by
  match cs with
  | [] | [_] => exact h
  | a :: b :: cs => exact ⟨isDigit_of_toLower h.1, isDigit_of_toLower h.2⟩

/-- Groups in either case are groups. -/
theorem hasGroup_of_map_toLower {cs : List Char} (h : HasGroup (cs.map Char.toLower)) :
    HasGroup cs := by
  induction cs with
  | nil => exact h
  | cons c cs ih =>
    rcases h with ⟨hc, hdigits⟩ | hrest
    · exact .inl ⟨eq_of_toLower_eq hc (by decide), startsDigits_of_map_toLower hdigits⟩
    · exact .inr (ih hrest)

theorem map_toLower_eq_points {cs : List Char} {n : Nat}
    (h : cs.map Char.toLower = List.replicate n '.') : cs = List.replicate n '.' := by
  have hlength : cs.length = n := by simpa using congrArg List.length h
  rw [List.eq_replicate_iff]
  refine ⟨hlength, fun c hc => eq_of_toLower_eq (d := '.') ?_ (by decide)⟩
  have hmem : c.toLower ∈ List.replicate n '.' := h ▸ List.mem_map_of_mem hc
  exact (List.mem_replicate.1 hmem).2

/-- Other than one or two points, dots are written with groups. -/
theorem dots?_eq_none {cs : List Char} (hone : cs ≠ ['.']) (htwo : cs ≠ ['.', '.'])
    (hgroup : ¬ HasGroup cs) : dots? cs = none := by
  have hlower {text : String} (h : (String.ofList cs).toLower = text) :
      cs.map Char.toLower = text.toList := by
    have hmap : (String.ofList cs).toLower = String.map Char.toLower (String.ofList cs) := rfl
    rw [← h, hmap, String.toList_map, String.toList_ofList]
  have hwritten {text : String} (h : (String.ofList cs).toLower = text)
      (htext : HasGroup text.toList) : False :=
    hgroup (hasGroup_of_map_toLower (hlower h ▸ htext))
  unfold dots?
  split
  case h_1 h => exact absurd (map_toLower_eq_points (n := 1) (hlower h)) hone
  case h_2 h => exact (hwritten h (by decide)).elim
  case h_3 h => exact absurd (map_toLower_eq_points (n := 2) (hlower h)) htwo
  case h_4 h => exact (hwritten h (by decide)).elim
  case h_5 h => exact (hwritten h (by decide)).elim
  case h_6 h => exact (hwritten h (by decide)).elim
  case h_7 => rfl

theorem keepsGroups_path : KeepsGroups isEscapedInPath := by
  rintro c (rfl | hc)
  · rfl
  · have hascii := ascii_of_isDigit hc
    revert hc
    rw [← Char.ofNat_toNat c]
    generalize c.toNat = n at hascii
    interval_cases n <;> decide

/-! ## Plain texts -/

/-- The characters that part an address, or do not count. -/
def marks : List Char := ['/', '\\', '?', '#', '\t', '\n', '\r']

/-- The text stands for itself as a segment at the end of an address. -/
structure IsPlainSegment (s : String) : Prop where
  unparted : ∀ c ∈ s.toList, c ∉ marks
  ending : ∀ c, s.toList.getLast? = some c → 0x20 < c.toNat
  not_here : s ≠ "."
  not_above : s ≠ ".."
  no_group : ¬ HasGroup s.toList

-- The texts are gone through, since to decide a statement about all characters would try them all.
instance (s : String) : Decidable (IsPlainSegment s) :=
  decidable_of_iff
    ((s.toList.all fun c => !marks.contains c) = true ∧
      (s.toList.getLast?.all fun c => decide (0x20 < c.toNat)) = true ∧ s ≠ "." ∧ s ≠ ".." ∧
      ¬ HasGroup s.toList) <| by
    constructor
    · rintro ⟨hmarks, hends, hone, htwo, hgroup⟩
      refine ⟨fun c hc => ?_, fun c hc => ?_, hone, htwo, hgroup⟩
      · simpa using List.all_eq_true.1 hmarks c hc
      · simpa [hc] using hends
    · rintro ⟨hmarks, hends, hone, htwo, hgroup⟩
      refine ⟨List.all_eq_true.2 fun c hc => ?_, ?_, hone, htwo, hgroup⟩
      · simpa using hmarks c hc
      · cases hlast : s.toList.getLast? with
        | none => rfl
        | some c => simpa using hends c hlast

variable {base : Url} {s : String}

theorem IsPlainSegment.not_mem (h : IsPlainSegment s) {c : Char} (hc : c ∈ marks) : c ∉ s.toList :=
  fun hmem => h.unparted c hmem hc

theorem IsPlainSegment.relevantEnd_eq (h : IsPlainSegment s) : relevantEnd s.toList = s.toList := by
  refine relevantEnd_eq_self_iff.2 ⟨fun c hc => ?_, fun c hc => ?_⟩
  · have hkept := h.unparted c hc
    simp only [marks, List.mem_cons, List.not_mem_nil, or_false, not_or] at hkept
    simp [isInner, hkept]
  · have := h.ending c hc
    simpa [isOuter] using this

theorem IsPlainSegment.dots?_eq (h : IsPlainSegment s) : dots? s.toList = none := by
  refine dots?_eq_none (fun hone => h.not_here ?_) (fun htwo => h.not_above ?_) h.no_group
  · rw [← String.ofList_toList (s := s), hone]
  · rw [← String.ofList_toList (s := s), htwo]

/-- The only segment of a text without slashes. -/
theorem split_slashes {cs : List Char} (hslash : '/' ∉ cs) (hback : '\\' ∉ cs) :
    Text.split '/' (slashes cs) = [cs] := by
  have hself : slashes cs = cs := by
    refine (List.map_congr_left fun c hc => ?_).trans (List.map_id cs)
    have hc' : c ≠ '\\' := fun h => hback (h ▸ hc)
    simp [hc']
  rw [hself, Text.split_of_not_mem hslash]

/-- Behind the name of a directory, an address goes on in that directory. -/
theorem continued_name {name : String} (hname : IsPlainSegment name)
    (hwritten : encode isEscapedInPath name.toList = name.toList) (cs : List Char) :
    base.continued (name.toList ++ '/' :: cs) =
      { base with
        segments := resolve (name :: base.directory.reverse)
          (Text.split '/' (slashes (beforeQuery cs)))
        query := after? '?' isEscapedInQuery (cs.takeWhile (· != '#'))
        fragment := after? '#' isEscapedInFragment cs } := by
  have hquery : '?' ∉ name.toList ++ ['/'] := by simpa using hname.not_mem (by decide)
  have hfragment : '#' ∉ name.toList ++ ['/'] := by simpa using hname.not_mem (by decide)
  have henter : enter base.directory.reverse name.toList = name :: base.directory.reverse := by
    rw [enter, hname.dots?_eq, hwritten, String.ofList_toList]
  have hsegments : Text.split '/' (slashes (name.toList ++ '/' :: beforeQuery cs)) =
      name.toList :: Text.split '/' (slashes (beforeQuery cs)) := by
    rw [slashes_append, slashes_cons_slash, Text.split_append_cons,
      split_slashes (hname.not_mem (by decide)) (hname.not_mem (by decide)), List.singleton_append]
  have hbefore : beforeQuery (name.toList ++ '/' :: cs) = name.toList ++ '/' :: beforeQuery cs := by
    rw [List.append_cons, beforeQuery_append hquery hfragment, List.append_assoc,
      List.singleton_append]
  rw [continued, hbefore, hsegments, resolve_cons (Text.split_ne_nil '/' _), henter,
    List.append_cons, List.takeWhile_append_of_pos (forall_ne_of_not_mem hfragment),
    after?_append hquery, after?_append hfragment]

/-- The address of a segment in a directory below the one that an address leads to. -/
def inDirectory (u : Url) (name segment : String) : Url :=
  { u with segments := u.directory ++ [name, segment], query := none, fragment := none }

/-- The last segment of a path stands for what is behind the last slash, or for nothing. -/
theorem lastSegment_spec {last : List Char} {t : String}
    (h : decodeText? (lastSegment last) = some t) :
    t = "" ∧ last ≠ [] ∨ dots? last = none ∧ decodeText? (String.ofList last) = some t := by
  rw [lastSegment] at h
  cases hdots : dots? last with
  | none =>
    rw [hdots] at h
    exact .inr ⟨rfl, by rwa [← decodeText?_encode keepsGroups_path]⟩
  | some dots =>
    rw [hdots] at h
    refine .inl ⟨(Option.some.inj h).symm, ?_⟩
    rintro rfl
    have hnil : dots? [] = none := by decide +kernel
    rw [hnil] at hdots
    cases hdots

/-- Only a text without slashes is as long as what stands behind its last slash. -/
theorem eq_of_split_slashes {cs last : List Char} {parts : List (List Char)}
    (hsplit : Text.split '/' (slashes cs) = parts ++ [last]) (hlength : cs.length ≤ last.length) :
    last = cs ∧ '/' ∉ cs ∧ '\\' ∉ cs := by
  have hslashes : (slashes cs).length = cs.length := List.length_map _
  rcases Text.split_cases '/' (slashes cs) with ⟨hnone, hone⟩ | ⟨inFront, last', hcs, hlast'⟩
  · have hslash : '/' ∉ cs := fun h => hnone (List.mem_map.2 ⟨'/', h, rfl⟩)
    have hback : '\\' ∉ cs := fun h => hnone (List.mem_map.2 ⟨'\\', h, rfl⟩)
    rw [split_slashes hslash hback] at hsplit
    exact ⟨by simpa using (congrArg List.getLast? hsplit).symm, hslash, hback⟩
  · have hlast : last' = last := by
      simpa [hlast'] using congrArg List.getLast? hsplit
    rw [hcs, List.length_append, List.length_cons, hlast] at hslashes
    omega

/-- A text that its last segment stands for is plain: all of it must stand there, since decoding
does not make a text longer. -/
theorem isPlainSegment_of_last {last : List Char} {parts : List (List Char)}
    (hsplit : Text.split '/' (slashes (relevantEnd s.toList)) = parts ++ [last])
    (hlast : decodeText? (lastSegment last) = some s) (hquery : '?' ∉ relevantEnd s.toList)
    (hfragment : '#' ∉ relevantEnd s.toList) : IsPlainSegment s := by
  have hshown := relevantEnd_sublist s.toList
  rcases lastSegment_spec hlast with ⟨rfl, hne⟩ | ⟨hdots, hdecode⟩
  · have hnil : Text.split '/' (slashes (relevantEnd "".toList)) = [[]] := rfl
    rw [hnil] at hsplit
    have hempty : [] = last := by simpa using congrArg List.getLast? hsplit
    exact absurd hempty.symm hne
  · have hle := length_le_of_decodeText? hdecode
    rw [String.toList_ofList] at hle
    obtain ⟨rfl, hslash, hback⟩ := eq_of_split_slashes hsplit (hshown.length_le.trans hle)
    have hself : relevantEnd s.toList = s.toList :=
      hshown.eq_of_length (Nat.le_antisymm hshown.length_le hle)
    rw [hself] at hslash hback hquery hfragment hdots hdecode
    rw [String.ofList_toList] at hdecode
    obtain ⟨hinner, hends⟩ := relevantEnd_eq_self_iff.1 hself
    refine ⟨fun c hc => ?_, fun c hc => ?_, ?_, ?_, (decodeText?_eq_self_iff s).1 hdecode⟩
    · have hkept := hinner c hc
      simp only [isInner, Bool.and_eq_true, bne_iff_ne] at hkept
      simp only [marks, List.mem_cons, List.not_mem_nil, or_false, not_or]
      exact ⟨ne_of_mem_of_not_mem hc hslash, ne_of_mem_of_not_mem hc hback,
        ne_of_mem_of_not_mem hc hquery, ne_of_mem_of_not_mem hc hfragment, hkept.1.1, hkept.1.2,
        hkept.2⟩
    · simpa [isOuter] using hends c hc
    · rintro rfl
      exact absurd hdots (by decide +kernel)
    · rintro rfl
      exact absurd hdots (by decide +kernel)

/-- **An address that goes on with a text has it as its last segment exactly when the text is
plain.** -/
theorem exists_segment_iff {name : String} (hname : IsPlainSegment name)
    (hwritten : encode isEscapedInPath name.toList = name.toList) (base : Url) (s : String) :
    (∃ segment, decodeText? segment = some s ∧
        base.continued (relevantEnd (name.toList ++ '/' :: s.toList)) =
          base.inDirectory name segment) ↔
      IsPlainSegment s := by
  have hend : relevantEnd (name.toList ++ '/' :: s.toList) =
      name.toList ++ '/' :: relevantEnd s.toList := by
    rw [relevantEnd_append (by decide), List.filter_eq_self.2]
    exact (relevantEnd_eq_self_iff.1 hname.relevantEnd_eq).1
  rw [hend, continued_name hname hwritten]
  constructor
  · rintro ⟨segment, hsegment, hcontinued⟩
    have hfragment : '#' ∉ relevantEnd s.toList :=
      after?_eq_none_iff.1 (congrArg Url.fragment hcontinued)
    have hquery : '?' ∉ relevantEnd s.toList :=
      takeWhile_eq_self_of_not_mem hfragment ▸
        after?_eq_none_iff.1 (congrArg Url.query hcontinued)
    obtain ⟨parts, last, hsplit⟩ := (List.eq_nil_or_concat _).resolve_left
      (Text.split_ne_nil '/' (slashes (relevantEnd s.toList)))
    rw [List.concat_eq_append] at hsplit
    have hlast : lastSegment last = segment := by
      have hsegments := congrArg (fun u : Url => u.segments.getLast?) hcontinued
      simp only [beforeQuery_eq_self hquery hfragment, hsplit, getLast?_resolve,
        inDirectory] at hsegments
      simpa using hsegments
    exact isPlainSegment_of_last hsplit (hlast ▸ hsegment) hquery hfragment
  · intro h
    have hquery : '?' ∉ s.toList := h.not_mem (by decide)
    have hfragment : '#' ∉ s.toList := h.not_mem (by decide)
    refine ⟨lastSegment s.toList, ?_, ?_⟩
    · rw [lastSegment, h.dots?_eq]
      rw [decodeText?_encode keepsGroups_path, String.ofList_toList]
      exact (decodeText?_eq_self_iff s).2 h.no_group
    · rw [h.relevantEnd_eq, beforeQuery_eq_self hquery hfragment,
        takeWhile_eq_self_of_not_mem hfragment, split_slashes (h.not_mem (by decide))
        (h.not_mem (by decide)), resolve_singleton, enter, h.dots?_eq, inDirectory, lastSegment,
        h.dots?_eq, after?_eq_none_iff.2 hquery, after?_eq_none_iff.2 hfragment]
      simp

end Chassis.Net.Url
