import ForgeGateway.Proofs.Git.ExecLine
import ForgeGateway.Proofs.Git.Shell
import Mathlib.Data.List.TakeDrop

/-! # The command for the forge and the name for the gate

Both are put together from an accepted line.  The name for the gate is cut into host and path by
its first slash (`Target.span_repository`), and no two repositories share it
(`Target.repository_inj`).  The command is read by a shell as the name of the service and the path
(`ExecLine.words_commandLine`), because the path has no character that means anything to a shell
(`Harmless`). -/

namespace ForgeGateway.Git

open ForgeGateway.Text

/-! ### The name for the gate -/

theorem Target.span_repository {t : Target} (h : '/' ∉ t.host.toList) :
    t.repository.toList.span (· != '/') = (t.host.toList, '/' :: t.path.toList) := by
  have before : ∀ c ∈ t.host.toList, (c != '/') = true := by
    intro c hc
    rw [bne_iff_ne]
    rintro rfl
    exact h hc
  have parts : t.repository.toList = t.host.toList ++ '/' :: t.path.toList := by
    simp [Target.repository]
  rw [List.span_eq_takeWhile_dropWhile, parts, List.takeWhile_append_of_pos before,
    List.dropWhile_append_of_pos before]
  simp

theorem Target.repository_inj {t u : Target} (ht : '/' ∉ t.host.toList) (hu : '/' ∉ u.host.toList)
    (h : t.repository = u.repository) : t = u := by
  have same := (Target.span_repository ht).symm.trans (h ▸ Target.span_repository hu)
  obtain ⟨host, path⟩ := t
  obtain ⟨host', path'⟩ := u
  simp only [Prod.mk.injEq, List.cons.injEq, true_and, String.toList_inj] at same
  rw [same.1, same.2]

/-! ### The characters of a path -/

def isControl (c : Char) : Bool := c.toNat < 32 || (127 ≤ c.toNat && c.toNat < 160)

/-- The path of an accepted line has no meaning but its own: no quotes, no white space, no control
characters, nothing special to a shell, and no hyphen in front that would make it an option. -/
structure Harmless (path : List Char) : Prop where
  special : ∀ c ∈ path, Shell.isSpecial c = false
  blank : ∀ c ∈ path, isBlank c = false
  control : ∀ c ∈ path, isControl c = false
  front : path.head? ≠ some '-'

theorem isSpecial_of_isPathChar {c : Char} (h : isPathChar c = true) :
    Shell.isSpecial c = false := by
  rw [isPathChar_iff] at h
  rcases h with (h | rfl | rfl | rfl) | rfl
  · rw [← Bool.not_eq_true]
    intro special
    have apart : Shell.specials.all (fun d => !d.isAlphanum) = true := by decide
    have other := List.all_eq_true.1 apart c (List.contains_iff_mem.1 special)
    rw [h] at other
    cases other
  all_goals rfl

theorem isControl_of_isPathChar {c : Char} (h : isPathChar c = true) : isControl c = false := by
  rw [isPathChar_iff] at h
  rcases h with (h | rfl | rfl | rfl) | rfl
  · rw [isAlphanum_iff] at h
    simp only [isControl, Bool.or_eq_false_iff, Bool.and_eq_false_iff, decide_eq_false_iff_not]
    omega
  all_goals rfl

theorem NameSyntax.harmless {host : List Char} {segments : List (List Char)}
    (h : NameSyntax host segments) : Harmless (join '/' segments) := by
  have chars : ∀ c ∈ join '/' segments, Git.isPathChar c = true := by
    intro c hc
    exact h.isPathChar c (List.mem_append_right host (List.mem_cons_of_mem '/' hc))
  refine ⟨fun c hc => isSpecial_of_isPathChar (chars c hc),
    fun c hc => isBlank_of_isPathChar (chars c hc),
    fun c hc => isControl_of_isPathChar (chars c hc), ?_⟩
  obtain ⟨first, rest, rfl⟩ := List.exists_cons_of_ne_nil h.segments_ne
  have segment := h.segment first List.mem_cons_self
  obtain ⟨c, first, rfl⟩ := List.exists_cons_of_ne_nil segment.nonempty
  cases rest with
  | nil => exact segment.front
  | cons => exact segment.front

/-! ### Accepted lines -/

namespace ExecLine

variable {raw : String} {e : ExecLine}

theorem exists_name (h : ExecLine.parse raw = .ok e) : ∃ host segments, NameSyntax host segments ∧
    e.target.host.toList = host.map Char.toLower ∧ e.target.path.toList = join '/' segments := by
  obtain ⟨_, host, segments, name, -, target⟩ := exists_layout h
  refine ⟨host, segments, name, ?_, ?_⟩
  · simp [target, lowered]
  · simp [target]

theorem slash_not_mem_host (h : ExecLine.parse raw = .ok e) : '/' ∉ e.target.host.toList := by
  obtain ⟨host, segments, name, hhost, -⟩ := exists_name h
  rw [hhost, List.mem_map]
  rintro ⟨c, hc, lower⟩
  rw [toLower_eq_iff (by decide)] at lower
  exact name.domain.not_slash (lower ▸ hc)

theorem harmless (h : ExecLine.parse raw = .ok e) : Harmless e.target.path.toList := by
  obtain ⟨host, segments, name, -, hpath⟩ := exists_name h
  rw [hpath]
  exact name.harmless

theorem words_commandLine (h : ExecLine.parse raw = .ok e) :
    Shell.words e.commandLine.toList = some [e.service.name.toList, e.target.path.toList] := by
  have unquoted : '\'' ∉ e.target.path.toList := by
    intro quote
    exact absurd ((harmless h).special _ quote) (by decide)
  have letters : e.service.name.toList.all (fun c => !Shell.isSpecial c) = true := by
    cases e.service <;> decide
  have plain : ∀ c ∈ e.service.name.toList, Shell.isSpecial c = false := by
    intro c hc
    simpa using List.all_eq_true.1 letters c hc
  have ne : e.service.name.toList ≠ [] := by
    cases e.service <;> decide
  rw [← Shell.words_quoted ne plain unquoted]
  simp [ExecLine.commandLine]

/-- An accepted line has no character that stands for something unreadable. -/
theorem not_replaced (h : ExecLine.parse raw = .ok e) : '\uFFFD' ∉ raw.toList := by
  obtain ⟨l, host, segments, name, rfl, -⟩ := exists_layout h
  have not_blank : ∀ cs : List Char, Blanks cs → '\uFFFD' ∉ cs := by
    intro cs hcs hc
    exact absurd (hcs _ hc) (by decide)
  have not_service : '\uFFFD' ∉ e.service.name.toList := by
    cases e.service <;> decide
  have not_name : '\uFFFD' ∉ fullName host segments := by
    intro hc
    exact absurd (name.isPathChar _ hc) (by decide)
  have not_wrapped : '\uFFFD' ∉ wrapped l.quoted l.slash (fullName host segments) := by
    cases l.quoted <;> cases l.slash <;> simp [wrapped, not_name]
  rw [Layout.line, String.toList_ofList]
  simp [not_blank _ l.before_blank, not_blank _ l.gap_blank, not_blank _ l.after_blank, not_service,
    not_wrapped]

end ExecLine

end ForgeGateway.Git
