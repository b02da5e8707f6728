import ForgeGateway.Git.ExecLine
import ForgeGateway.Proofs.Text.Letter
import ForgeGateway.Proofs.Text.Split

/-! # The grammar of repository names

`HostSyntax` and `NameSyntax` say what a repository name is, character by character and
without any reading of it: a host name, a slash, and segments with slashes between them.
`isDomainName_iff` and `Target.ofPath_eq_ok` prove that the checks of the reader, one behind the
other, accept exactly these. -/

namespace ForgeGateway.Git

open ForgeGateway.Text

/-! ### Host names -/

/-- A label of a host name: 1 to 63 letters, digits and inner hyphens. -/
structure LabelSyntax (label : List Char) : Prop where
  pos : 1 ≤ label.length
  short : label.length ≤ 63
  chars : ∀ c ∈ label, c.isAlphanum = true ∨ c = '-'
  front : label.head? ≠ some '-'
  back : label.getLast? ≠ some '-'

/-- A host name: at most 253 octets, at least two labels with dots between them, the last one
of at least two letters and nothing else. -/
structure HostSyntax (host : List Char) : Prop where
  size : (String.ofList host).utf8ByteSize ≤ 253
  labels : ∃ inner top, inner ≠ [] ∧ host = join '.' (inner ++ [top]) ∧
    (∀ label ∈ inner ++ [top], LabelSyntax label) ∧ 2 ≤ top.length ∧ ∀ c ∈ top, c.isAlpha = true

theorem isLabel_iff (cs : List Char) : isLabel cs = true ↔ LabelSyntax cs := by
  simp only [isLabel, Bool.and_eq_true, Bool.not_eq_true', List.isEmpty_eq_false_iff,
    decide_eq_true_eq, bne_iff_ne, List.all_eq_true, isLetter_or_isDigit, Bool.or_eq_true,
    beq_iff_eq]
  constructor
  · rintro ⟨⟨⟨⟨pos, short⟩, front⟩, back⟩, chars⟩
    exact ⟨List.length_pos_iff.2 pos, short, chars, front, back⟩
  · rintro ⟨pos, short, chars, front, back⟩
    exact ⟨⟨⟨⟨List.length_pos_iff.1 pos, short⟩, front⟩, back⟩, chars⟩

theorem utf8ByteSize_ofList {cs : List Char} (h : ∀ c ∈ cs, c.toNat < 128) :
    (String.ofList cs).utf8ByteSize = cs.length := by
  induction cs with
  | nil => rfl
  | cons c cs ih =>
      have one : c.utf8Size = 1 := by
        rw [Char.utf8Size_eq_one_iff, UInt32.le_iff_toNat_le]
        exact Nat.le_of_lt_succ (h c List.mem_cons_self)
      have rest := ih fun d hd => h d (List.mem_cons_of_mem c hd)
      rw [String.ofList_cons, String.utf8ByteSize_append, String.utf8ByteSize_singleton, one, rest,
        List.length_cons, Nat.add_comm]

theorem LabelSyntax.toNat_lt {label : List Char} (h : LabelSyntax label) :
    ∀ c ∈ label, c.toNat < 128 := by
  intro c hc
  rcases h.chars c hc with hc | rfl
  · rw [isAlphanum_iff] at hc
    omega
  · decide

theorem toNat_lt_of_labels {labels : List (List Char)} (h : ∀ label ∈ labels, LabelSyntax label) :
    ∀ c ∈ join '.' labels, c.toNat < 128 := by
  intro c hc
  rcases mem_join hc with rfl | ⟨label, hl, hc⟩
  · decide
  · exact (h label hl).toNat_lt c hc

theorem LabelSyntax.not_dot {label : List Char} (h : LabelSyntax label) : '.' ∉ label := by
  intro hc
  rcases h.chars _ hc with hc | hc
  · exact absurd hc (by decide)
  · exact absurd hc (by decide)

theorem isDomainName_iff (host : List Char) : isDomainName host = true ↔ HostSyntax host := by
  simp only [isDomainName, Bool.and_eq_true, decide_eq_true_eq, List.all_eq_true, isLabel_iff]
  constructor
  · rintro ⟨⟨⟨size, two⟩, labels⟩, top⟩
    have ne : split '.' host ≠ [] := split_ne_nil '.' host
    have parts := List.dropLast_concat_getLast ne
    have joined : host = join '.' ((split '.' host).dropLast ++ [(split '.' host).getLast ne]) := by
      rw [parts, join_split]
    rw [← parts] at labels
    rw [List.getLast?_eq_some_getLast ne, Option.map_some, Option.getD_some, isTopLabel,
      Bool.and_eq_true, decide_eq_true_eq, List.all_eq_true] at top
    refine ⟨?_, _, _, ?_, joined, labels, top.1, ?_⟩
    · rw [utf8ByteSize_ofList]
      · exact size
      · rw [joined]
        exact toNat_lt_of_labels labels
    · rw [← List.length_pos_iff, List.length_dropLast]
      omega
    · intro c hc
      rw [← isLetter_eq]
      exact top.2 c hc
  · rintro ⟨size, inner, top, ne, joined, labels, long, letters⟩
    have parts : split '.' host = inner ++ [top] := by
      rw [joined]
      exact split_join (by simp) fun label hl => (labels label hl).not_dot
    have ascii : ∀ c ∈ host, c.toNat < 128 := joined ▸ toNat_lt_of_labels labels
    rw [utf8ByteSize_ofList ascii] at size
    rw [parts]
    refine ⟨⟨⟨size, ?_⟩, labels⟩, ?_⟩
    · have := List.length_pos_iff.2 ne
      simp
      omega
    · simp only [List.getLast?_concat, Option.map_some, Option.getD_some, isTopLabel,
        Bool.and_eq_true, decide_eq_true_eq, List.all_eq_true, isLetter_eq]
      exact ⟨long, letters⟩

/-! ### Repository names -/

/-- A segment of a path: a word that does not start with a hyphen. -/
structure SegmentSyntax (segment : List Char) : Prop where
  nonempty : segment ≠ []
  chars : ∀ c ∈ segment, c.isAlphanum = true ∨ c = '.' ∨ c = '_' ∨ c = '-'
  front : segment.head? ≠ some '-'

def fullName (host : List Char) (segments : List (List Char)) : List Char :=
  host ++ '/' :: join '/' segments

/-- The parts of a repository name: a host name and at least one segment, without two dots in
a row, and the last segment is something and `.git` behind it. -/
structure NameSyntax (host : List Char) (segments : List (List Char)) : Prop where
  domain : HostSyntax host
  segment : ∀ s ∈ segments, SegmentSyntax s
  dots : ¬['.', '.'] <:+: fullName host segments
  git : ∃ front stem, stem ≠ [] ∧ segments = front ++ [stem ++ ['.', 'g', 'i', 't']]

theorem isPathChar_iff (c : Char) : isPathChar c = true ↔
    (c.isAlphanum = true ∨ c = '.' ∨ c = '_' ∨ c = '-') ∨ c = '/' := by
  simp only [isPathChar, isLetter_or_isDigit, Bool.or_eq_true, beq_iff_eq]
  grind

theorem SegmentSyntax.not_slash {segment : List Char} (h : SegmentSyntax segment) :
    '/' ∉ segment := by
  intro hc
  rcases h.chars _ hc with hc | hc | hc | hc <;> exact absurd hc (by decide)

theorem HostSyntax.chars {host : List Char} (h : HostSyntax host) :
    ∀ c ∈ host, c.isAlphanum = true ∨ c = '.' ∨ c = '-' := by
  obtain ⟨inner, top, -, rfl, labels, -⟩ := h.labels
  intro c hc
  rcases mem_join hc with rfl | ⟨label, hl, hc⟩
  · exact .inr (.inl rfl)
  · exact ((labels label hl).chars c hc).imp_right .inr

theorem HostSyntax.not_slash {host : List Char} (h : HostSyntax host) : '/' ∉ host := by
  intro hc
  rcases h.chars _ hc with hc | hc | hc <;> exact absurd hc (by decide)

theorem HostSyntax.ne_nil {host : List Char} (h : HostSyntax host) : host ≠ [] := by
  obtain ⟨inner, top, ne, rfl, -⟩ := h.labels
  obtain ⟨label, inner, rfl⟩ := List.exists_cons_of_ne_nil ne
  rw [List.cons_append, join_cons (by simp)]
  simp

section
variable {host : List Char} {segments : List (List Char)}

theorem NameSyntax.segments_ne (h : NameSyntax host segments) : segments ≠ [] := by
  obtain ⟨front, stem, -, rfl⟩ := h.git
  simp

theorem NameSyntax.split_fullName (h : NameSyntax host segments) :
    split '/' (fullName host segments) = host :: segments := by
  rw [fullName, split_append_cons h.domain.not_slash,
    split_join h.segments_ne fun s hs => (h.segment s hs).not_slash]

theorem NameSyntax.isPathChar (h : NameSyntax host segments) :
    ∀ c ∈ fullName host segments, Git.isPathChar c = true := by
  intro c hc
  rw [isPathChar_iff]
  rw [fullName, List.mem_append, List.mem_cons] at hc
  rcases hc with hc | hc | hc
  · rcases h.domain.chars c hc with hc | hc | hc
    · exact .inl (.inl hc)
    · exact .inl (.inr (.inl hc))
    · exact .inl (.inr (.inr (.inr hc)))
  · exact .inr hc
  · rcases mem_join hc with hc | ⟨s, hs, hc⟩
    · exact .inr hc
    · exact .inl ((h.segment s hs).chars c hc)

end

theorem Target.ofPath_fullName {host : List Char} {segments : List (List Char)}
    (h : NameSyntax host segments) : Target.ofPath (fullName host segments) =
      .ok ⟨lowered (String.ofList host), String.ofList (join '/' segments)⟩ := by
  obtain ⟨front, stem, stem_ne, hgit⟩ := h.git
  have name_ne : fullName host segments ≠ [] := by simp [fullName]
  have chars : (fullName host segments).all Git.isPathChar = true := List.all_eq_true.2 h.isPathChar
  have dots : occursIn ['.', '.'] (fullName host segments) = false := by
    rw [← Bool.not_eq_true, occursIn_iff]
    exact h.dots
  have filled : (host :: segments).any List.isEmpty = false := by
    rw [List.any_eq_false]
    intro s hs
    rw [List.isEmpty_iff]
    rcases List.mem_cons.1 hs with rfl | hs
    · exact h.domain.ne_nil
    · exact (h.segment s hs).nonempty
  have suffix : ['.', 'g', 'i', 't'].isSuffixOf (fullName host segments) = true := by
    rw [List.isSuffixOf_iff_suffix]
    refine List.IsSuffix.trans ?_ (List.suffix_append_of_suffix (List.suffix_cons _ _))
    rw [suffix_join_iff (by decide) h.segments_ne]
    simp [hgit]
  have front_ok : segments.any (fun s => s.head? == some '-') = false := by
    rw [List.any_eq_false]
    intro s hs
    rw [beq_iff_eq]
    exact (h.segment s hs).front
  have named : (segments.getLast? == some ['.', 'g', 'i', 't']) = false := by
    simp [hgit, stem_ne]
  obtain ⟨s, rest, rfl⟩ := List.exists_cons_of_ne_nil h.segments_ne
  rw [Target.ofPath]
  simp only [List.isEmpty_eq_false_iff.2 name_ne, chars, dots, h.split_fullName, filled, suffix,
    (isDomainName_iff host).2 h.domain, front_ok, named]
  rfl

theorem segmentSyntax_of_mem_split {path segment : List Char}
    (chars : ∀ c ∈ path, Git.isPathChar c = true) (mem : segment ∈ split '/' path)
    (nonempty : segment ≠ []) (front : segment.head? ≠ some '-') : SegmentSyntax segment := by
  refine ⟨nonempty, ?_, front⟩
  intro c hc
  obtain ⟨no_slash, inside⟩ := of_mem_split mem
  rcases (isPathChar_iff c).1 (chars c (inside c hc)) with h | rfl
  · exact h
  · exact absurd hc no_slash

theorem exists_stem {segments : List (List Char)} (ne : segments ≠ [])
    (suffix : ['.', 'g', 'i', 't'] <:+ join '/' segments)
    (named : segments.getLast? ≠ some ['.', 'g', 'i', 't']) :
    ∃ front stem, stem ≠ [] ∧ segments = front ++ [stem ++ ['.', 'g', 'i', 't']] := by
  obtain ⟨stem, hstem⟩ := (suffix_join_iff (by decide) ne).1 suffix
  refine ⟨segments.dropLast, stem, ?_, ?_⟩
  · rintro rfl
    apply named
    rw [List.getLast?_eq_some_getLast ne, ← hstem]
    rfl
  · rw [hstem, List.dropLast_concat_getLast]

theorem Target.nameSyntax_of_ofPath {path : List Char} {t : Target}
    (h : Target.ofPath path = .ok t) : ∃ host segments, NameSyntax host segments ∧
      path = fullName host segments ∧
      t = ⟨lowered (String.ofList host), String.ofList (join '/' segments)⟩ := by
  unfold Target.ofPath at h
  split at h
  next => cases h
  split at h
  next => cases h
  next chars =>
  split at h
  next => cases h
  next dots =>
  split at h
  next => cases h
  next filled =>
  split at h
  next => cases h
  next suffix =>
  split at h
  next _ host segment rest parts =>
    split at h
    next => cases h
    next domain =>
    split at h
    next => cases h
    next front =>
    split at h
    next => cases h
    next named =>
    have joined : path = fullName host (segment :: rest) := by
      rw [fullName, ← join_cons (by simp), ← parts, join_split]
    refine ⟨host, segment :: rest, ⟨?_, ?_, ?_, ?_⟩, joined, (Except.ok.inj h).symm⟩
    · rw [← isDomainName_iff]
      simpa using domain
    · intro s hs
      have mem : s ∈ split '/' path := by
        rw [parts]
        exact List.mem_cons_of_mem host hs
      refine segmentSyntax_of_mem_split (by simpa using chars) mem ?_ ?_
      · rintro rfl
        exact filled (List.any_eq_true.2 ⟨[], mem, rfl⟩)
      · intro hyphen
        exact front (List.any_eq_true.2 ⟨s, hs, by simp [hyphen]⟩)
    · rw [← joined, ← occursIn_iff]
      exact dots
    · refine exists_stem (by simp) ?_ (by simpa using named)
      have : ['.', 'g', 'i', 't'] <:+ join '/' (host :: segment :: rest) := by
        rw [← parts, join_split]
        simpa [List.isSuffixOf_iff_suffix] using suffix
      rw [suffix_join_iff (by decide) (by simp)] at this ⊢
      rwa [List.getLast_cons (by simp)] at this
  next => cases h

theorem Target.ofPath_eq_ok {path : List Char} {t : Target} : Target.ofPath path = .ok t ↔
    ∃ host segments, NameSyntax host segments ∧ path = fullName host segments ∧
      t = ⟨lowered (String.ofList host), String.ofList (join '/' segments)⟩ := by
  constructor
  · exact Target.nameSyntax_of_ofPath
  · rintro ⟨host, segments, name, rfl, rfl⟩
    exact Target.ofPath_fullName name

/-! ### Capitals -/

theorem map_toLower_bne_hyphen (o : Option Char) :
    (o.map Char.toLower != some '-') = (o != some '-') := by
  cases o with
  | none => rfl
  | some c =>
      rw [Bool.eq_iff_iff, bne_iff_ne, bne_iff_ne, Option.map_some, ne_eq, ne_eq, Option.some_inj,
        Option.some_inj, toLower_eq_iff (by decide)]

theorem isLabel_map_toLower (label : List Char) :
    isLabel (label.map Char.toLower) = isLabel label := by
  have kind : ∀ c : Char, (isLetter c.toLower || isDigit c.toLower || c.toLower == '-') =
      (isLetter c || isDigit c || c == '-') := by
    intro c
    have hyphen : (c.toLower == '-') = (c == '-') := by
      rw [Bool.eq_iff_iff, beq_iff_eq, beq_iff_eq, toLower_eq_iff (by decide)]
    rw [isLetter_or_isDigit, isLetter_or_isDigit, isAlphanum_toLower, hyphen]
  simp only [isLabel, List.isEmpty_map, List.length_map, List.head?_map, List.getLast?_map,
    map_toLower_bne_hyphen, List.all_map, Function.comp_def, kind]

theorem isTopLabel_map_toLower (label : List Char) :
    isTopLabel (label.map Char.toLower) = isTopLabel label := by
  have kind : ∀ c : Char, isLetter c.toLower = isLetter c := by
    intro c
    rw [isLetter_eq, isLetter_eq, isAlpha_toLower]
  simp only [isTopLabel, List.length_map, List.all_map, Function.comp_def, kind]

theorem hostSyntax_map_toLower (host : List Char) :
    HostSyntax (host.map Char.toLower) ↔ HostSyntax host := by
  have cuts := split_map (f := Char.toLower) (fun c => toLower_eq_iff (d := '.') (by decide)) host
  rw [← isDomainName_iff, ← isDomainName_iff, ← Bool.eq_iff_iff]
  simp only [isDomainName, cuts, List.length_map, List.all_map, Function.comp_def,
    isLabel_map_toLower, List.getLast?_map, Option.map_map, isTopLabel_map_toLower]

/-- Capitals in the host name make no difference to whether something is a repository name. -/
theorem NameSyntax.of_map_toLower {host host' : List Char} {segments : List (List Char)}
    (h : NameSyntax host segments) (same : host'.map Char.toLower = host.map Char.toLower) :
    NameSyntax host' segments := by
  have no_letter : ∀ d ∈ ['.', '.'], ∀ c, Char.toLower c = d ↔ c = d := by
    intro d hd c
    obtain rfl : d = '.' := by simpa using hd
    exact toLower_eq_iff (by decide)
  refine ⟨?_, h.segment, ?_, h.git⟩
  · rw [← hostSyntax_map_toLower, same, hostSyntax_map_toLower]
    exact h.domain
  · have dots := h.dots
    rw [← occursIn_iff, fullName, ← occursIn_map_append no_letter] at dots ⊢
    rwa [same]

end ForgeGateway.Git
