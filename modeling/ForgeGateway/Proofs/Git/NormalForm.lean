import ForgeGateway.Proofs.Git.CommandLine

/-! # The place a path leads to

A path is followed segment by segment: an empty segment and `.` stay where they are, `..` goes
up, and everything else goes down (`follow`, `Target.resolved`).  Accepted paths have no empty
segment and no `..`, but they may have `.`; following one only drops these
(`ExecLine.segments_resolved`), and what is left is accepted too (`NameSyntax.filter_dots`).
`path_without_dots` is the main theorem: a path is the place it leads to exactly if it has no
segment `.`, and only then do two ways to one place have one name. -/

namespace ForgeGateway.Git

open ForgeGateway.Text

/-- The place that a segment leads to. -/
def follow (place : List (List Char)) (segment : List Char) : List (List Char) :=
  if segment = [] ∨ segment = ['.'] then place
  else if segment = ['.', '.'] then place.dropLast
  else place ++ [segment]

namespace Target

def segments (t : Target) : List (List Char) := split '/' t.path.toList

/-- The repository with the place that its path leads to from the root of the host. -/
def resolved (t : Target) : Target :=
  ⟨t.host, String.ofList (join '/' (t.segments.foldl follow []))⟩

theorem ext_segments {t u : Target} (host : t.host = u.host) (same : t.segments = u.segments) :
    t = u := by
  obtain ⟨_, path⟩ := t
  obtain ⟨_, path'⟩ := u
  have paths : path.toList = path'.toList := by
    rw [← join_split '/' path.toList, ← join_split '/' path'.toList]
    exact congrArg (join '/') same
  rw [String.toList_inj] at paths
  subst host paths
  rfl

end Target

/-- Without empty segments and `..`, following a path drops the segments `.`. -/
theorem foldl_follow (place : List (List Char)) {segments : List (List Char)}
    (plain : ∀ s ∈ segments, s ≠ [] ∧ s ≠ ['.', '.']) :
    segments.foldl follow place = place ++ segments.filter (· ≠ ['.']) := by
  induction segments generalizing place with
  | nil => simp
  | cons s rest ih =>
      rw [List.forall_mem_cons] at plain
      obtain ⟨⟨nonempty, not_up⟩, plain⟩ := plain
      by_cases dot : s = ['.']
      · simp [follow, dot, ih place plain]
      · simp [follow, dot, nonempty, not_up, ih (place ++ [s]) plain]

section
variable {host : List Char} {segments : List (List Char)}

theorem NameSyntax.plain (h : NameSyntax host segments) :
    ∀ s ∈ segments, s ≠ [] ∧ s ≠ ['.', '.'] := by
  intro s hs
  refine ⟨(h.segment s hs).nonempty, ?_⟩
  rintro rfl
  apply h.dots
  rw [fullName, ← join_cons h.segments_ne, infix_join_iff (by decide) (by decide)]
  exact ⟨_, List.mem_cons_of_mem host hs, List.infix_rfl⟩

/-- A name without its segments `.` is a name. -/
theorem NameSyntax.filter_dots (h : NameSyntax host segments) :
    NameSyntax host (segments.filter (· ≠ ['.'])) := by
  obtain ⟨front, stem, stem_ne, parts⟩ := h.git
  have last : stem ++ ['.', 'g', 'i', 't'] ≠ ['.'] := by simp [List.append_eq_cons_iff]
  have kept : segments.filter (· ≠ ['.']) =
      front.filter (· ≠ ['.']) ++ [stem ++ ['.', 'g', 'i', 't']] := by
    simp [parts, last]
  refine ⟨h.domain, fun s hs => h.segment s (List.mem_filter.1 hs).1, ?_, _, stem, stem_ne, kept⟩
  have kept_ne : segments.filter (· ≠ ['.']) ≠ [] := by
    rw [kept]
    exact List.concat_ne_nil _ _
  have dots := h.dots
  rw [fullName, ← join_cons h.segments_ne, infix_join_iff (by decide) (by decide)] at dots
  rw [fullName, ← join_cons kept_ne, infix_join_iff (by decide) (by decide)]
  rintro ⟨s, hs, inside⟩
  rcases List.mem_cons.1 hs with rfl | hs
  · exact dots ⟨s, List.mem_cons_self, inside⟩
  · exact dots ⟨s, List.mem_cons_of_mem host (List.mem_filter.1 hs).1, inside⟩

end

namespace ExecLine

variable {raw : String} {e : ExecLine}

theorem exists_segments (h : ExecLine.parse raw = .ok e) :
    ∃ host, NameSyntax host e.target.segments ∧ e.target.host.toList = host.map Char.toLower := by
  obtain ⟨host, segments, name, hhost, hpath⟩ := exists_name h
  have parts : e.target.segments = segments := by
    have no_slash : ∀ s ∈ segments, '/' ∉ s := fun s hs => (name.segment s hs).not_slash
    rw [Target.segments, hpath, split_join name.segments_ne no_slash]
  exact ⟨host, parts ▸ name, hhost⟩

/-- Following an accepted path drops its segments `.`. -/
theorem segments_resolved (h : ExecLine.parse raw = .ok e) :
    e.target.resolved.segments = e.target.segments.filter (· ≠ ['.']) := by
  obtain ⟨host, name, -⟩ := exists_segments h
  have kept := name.filter_dots
  rw [Target.resolved, foldl_follow [] name.plain, List.nil_append, Target.segments,
    String.toList_ofList, split_join kept.segments_ne fun s hs => (kept.segment s hs).not_slash]

/-- An accepted path is the place it leads to exactly if it has no segment `.`. -/
theorem resolved_eq_iff (h : ExecLine.parse raw = .ok e) :
    e.target.resolved = e.target ↔ ['.'] ∉ e.target.segments := by
  constructor
  · intro same dot
    have all := segments_resolved h
    rw [same] at all
    rw [all] at dot
    simp at dot
  · intro no_dot
    refine Target.ext_segments rfl ?_
    rw [segments_resolved h, List.filter_eq_self]
    intro s hs
    rw [decide_eq_true_eq]
    rintro rfl
    exact no_dot hs

theorem exists_parse_resolved (h : ExecLine.parse raw = .ok e) :
    ∃ raw', ExecLine.parse raw' = .ok ⟨e.service, e.target.resolved⟩ := by
  obtain ⟨host, name, hhost⟩ := exists_segments h
  have small : lowered (String.ofList host) = e.target.host := by
    rw [← String.toList_inj, hhost]
    simp [lowered]
  have path : e.target.resolved.path =
      String.ofList (join '/' (e.target.segments.filter (· ≠ ['.']))) := by
    rw [Target.resolved, foldl_follow [] name.plain, List.nil_append]
  refine ⟨_, (ExecLine.parse_line .plain e.service name.filter_dots).trans ?_⟩
  rw [small, ← path]
  rfl

end ExecLine

/-- **The names of a place.**  No segment of an accepted path is empty or `..`.  Some may be `.`,
and following the path only drops these: the path is the place it leads to exactly if none of its
segments is `.`, and the place is accepted under its own name.  So of the accepted ways to one
place only those without `.` have that name for the gate, and all others have different ones. -/
theorem path_without_dots {raw : String} {e : ExecLine} (h : ExecLine.parse raw = .ok e) :
    (∀ s ∈ e.target.segments, s ≠ [] ∧ s ≠ ['.', '.']) ∧
    e.target.resolved.segments = e.target.segments.filter (· ≠ ['.']) ∧
    (e.target.resolved = e.target ↔ ['.'] ∉ e.target.segments) ∧
    (∃ raw', ExecLine.parse raw' = .ok ⟨e.service, e.target.resolved⟩) ∧
    ∀ raw' e', ExecLine.parse raw' = .ok e' → e'.target.resolved = e.target.resolved →
      ['.'] ∉ e.target.segments →
      (e'.target.repository = e.target.repository ↔ ['.'] ∉ e'.target.segments) := by
  refine ⟨?_, ExecLine.segments_resolved h, ExecLine.resolved_eq_iff h,
    ExecLine.exists_parse_resolved h, ?_⟩
  · obtain ⟨host, name, -⟩ := ExecLine.exists_segments h
    exact name.plain
  · intro raw' e' h' same no_dot
    constructor
    · intro names
      rw [Target.repository_inj (ExecLine.slash_not_mem_host h') (ExecLine.slash_not_mem_host h)
        names]
      exact no_dot
    · intro no_dot'
      rw [← ExecLine.resolved_eq_iff h] at no_dot
      rw [← ExecLine.resolved_eq_iff h'] at no_dot'
      rw [← no_dot', same, no_dot]

/-- A repository with a `.` in its path. -/
def dotted : Target := ⟨"github.com", "acme/./widgets.git"⟩

theorem parse_dotted : ExecLine.parse "git-upload-pack 'github.com/acme/./widgets.git'" =
    .ok ⟨.uploadPack, dotted⟩ := by
  decide +kernel

/-- Its path is not the place it leads to, and that is accepted under another name. -/
theorem path_without_dots_sample :
    (∀ s ∈ dotted.segments, s ≠ [] ∧ s ≠ ['.', '.']) ∧ dotted.resolved ≠ dotted ∧
    ∃ raw, ExecLine.parse raw = .ok ⟨.uploadPack, dotted.resolved⟩ ∧
      dotted.repository ≠ dotted.resolved.repository := by
  obtain ⟨plain, -, fixed, ⟨raw, read⟩, -⟩ := path_without_dots parse_dotted
  obtain ⟨-, -, -, -, names⟩ := path_without_dots read
  refine ⟨plain, fun same => fixed.1 same (by decide), raw, read, ?_⟩
  intro same
  exact (names _ _ parse_dotted (by decide) (by decide)).1 same (by decide)

/-- One repository, under two names for the gate: both lines are accepted, and their paths lead to
the same place. -/
theorem two_names :
    ∃ e e' : ExecLine,
      ExecLine.parse "git-upload-pack 'github.com/acme/./widgets.git'" = .ok e ∧
      ExecLine.parse "git-upload-pack 'github.com/acme/widgets.git'" = .ok e' ∧
      ['.'] ∈ e.target.segments ∧ e.target.resolved ≠ e.target ∧
      e.target.resolved = e'.target.resolved ∧ e.target.repository ≠ e'.target.repository :=
  ⟨_, ⟨.uploadPack, "github.com", "acme/widgets.git"⟩, parse_dotted, by decide +kernel,
    by decide, by decide, by decide, by decide⟩

end ForgeGateway.Git
