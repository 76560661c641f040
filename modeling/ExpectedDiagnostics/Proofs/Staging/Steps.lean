import ExpectedDiagnostics.Proofs.Except
import ExpectedDiagnostics.Staging

/-!
# Staging step by step

What staging one file comes to, on any disk: the file can be read, and either it is given as it is,
or nothing is found where its copy goes and the copy is written. Later proofs take a step apart with
these lemmas and go by what the disk says, and staging all files is a matter of what each step
preserves.

Main results:

* `add_of_same`, `add_of_differs` — when a file is staged.
* `add_eq_ok`, `add_eq_error` — what has happened when it was, and why it was not.
* `enter_induction` — what every step preserves holds when staging ends, and before it is stopped.
-/

namespace ExpectedDiagnostics

namespace Staging

variable {T : Type} [Disk T] {s next : Staging T} {source : Location} {text : List Char}

/-- A file that retagging does not change is given as it is. -/
theorem add_of_same (hread : Disk.readText s.tree source = .ok text)
    (hsame : Marker.retag (.ofList text) = .ofList text) :
    s.add source = .ok { s with places := s.places ++ [source] } := by
  unfold add
  rw [hread]
  simp only [bind, Except.bind]
  rw [if_pos (beq_iff_eq.mpr hsame)]
  rfl

/-- Any other file is given as its copy, if nothing is found where the copy goes. -/
theorem add_of_differs {tree : T} (hread : Disk.readText s.tree source = .ok text)
    (hdiffers : Marker.retag (.ofList text) ≠ .ofList text)
    (hfind : Disk.find? s.tree (copyPlace source) = .ok none)
    (hwrite : Disk.write s.tree (copyPlace source)
      (Utf8.encode (Marker.retag (.ofList text)).toList) = .ok tree) :
    ∃ log, s.add source = .ok
      { tree
        places := s.places ++ [copyPlace source]
        copies := s.copies ++ [(copyPlace source, source)]
        log } := by
  unfold add
  rw [hread]
  simp only [bind, Except.bind]
  rw [if_neg (by rw [beq_iff_eq]; exact hdiffers), hfind]
  dsimp only
  rw [if_neg (by decide), hwrite]
  exact ⟨_, rfl⟩

/-- It is not staged, if what is where its copy goes cannot even be asked for. -/
theorem add_of_find?_error {f : Failure} (hread : Disk.readText s.tree source = .ok text)
    (hdiffers : Marker.retag (.ofList text) ≠ .ofList text)
    (hfind : Disk.find? s.tree (copyPlace source) = .error f) : s.add source = .error f := by
  unfold add
  rw [hread]
  simp only [bind, Except.bind]
  rw [if_neg (by rw [beq_iff_eq]; exact hdiffers), hfind]

/-- What staging a file comes to: the file can be read, and either retagging does not change it and
it is given as it is, or nothing is found where its copy goes and the copy is written. -/
theorem add_eq_ok (h : s.add source = .ok next) :
    ∃ text, Disk.readText s.tree source = .ok text ∧
      ((Marker.retag (.ofList text) = .ofList text ∧
          next = { s with places := s.places ++ [source] }) ∨
        (Marker.retag (.ofList text) ≠ .ofList text ∧
          Disk.find? s.tree (copyPlace source) = .ok none ∧
          ∃ tree log, Disk.write s.tree (copyPlace source)
              (Utf8.encode (Marker.retag (.ofList text)).toList) = .ok tree ∧
            next =
              { tree
                places := s.places ++ [copyPlace source]
                copies := s.copies ++ [(copyPlace source, source)]
                log })) := by
  obtain ⟨text, hread, h⟩ := exists_of_bind_eq_ok h
  refine ⟨text, hread, ?_⟩
  dsimp only at h
  split at h
  · rename_i hsame
    exact .inl ⟨beq_iff_eq.mp hsame, (Except.ok.inj h).symm⟩
  · rename_i hdiffers
    obtain ⟨found, hfound, h⟩ := exists_of_bind_eq_ok h
    refine .inr ⟨fun hsame => hdiffers (beq_iff_eq.mpr hsame), ?_⟩
    cases found with
    | some entry => exact nomatch h
    | none =>
      obtain ⟨tree, hwrite, h⟩ := exists_of_bind_eq_ok h
      exact ⟨hfound, tree, _, hwrite, (Except.ok.inj h).symm⟩

/-- Why staging a file fails: it cannot be read, it cannot be told whether something is where its
copy goes, something is, or the copy cannot be written. -/
theorem add_eq_error {f : Failure} (h : s.add source = .error f) :
    Disk.readText s.tree source = .error f ∨
      Disk.find? s.tree (copyPlace source) = .error f ∨
      f = .problem (.checker
        ("refusing to overwrite existing file " ++ (copyPlace source).toString) none) ∨
      ∃ content, Disk.write s.tree (copyPlace source) content = .error f := by
  rcases error_of_bind_eq_error h with hread | ⟨text, -, h⟩
  · exact .inl hread
  dsimp only at h
  split at h
  · exact nomatch h
  rcases error_of_bind_eq_error h with hfound | ⟨found, -, h⟩
  · exact .inr (.inl hfound)
  cases found with
  | some entry => exact .inr (.inr (.inl (Except.error.inj h).symm))
  | none =>
    rcases error_of_bind_eq_error h with hwrite | ⟨tree, -, h⟩
    · exact .inr (.inr (.inr ⟨_, hwrite⟩))
    · exact nomatch h

/-! ## All files -/

variable {P : List Location → Staging T → Prop} {t : T} {done sources : List Location}

/-- From any stage, files are staged up to the first one that cannot be staged, and what every step
preserves holds there. -/
theorem addAll_induction
    (hstep : ∀ {done s source next}, source ∈ sources → P done s → s.add source = .ok next →
      P (done ++ [source]) next) (h : P done s) :
    ∃ before after, sources = before ++ after ∧ P (done ++ before) (s.addAll sources).1 ∧
      ((s.addAll sources).2 = none → after = []) := by
  -- the induction is on the files that are left, with those that are done varying
  induction sources generalizing done s with
  | nil => exact ⟨[], [], rfl, by rwa [List.append_nil], fun _ => rfl⟩
  | cons source sources ih =>
    rw [addAll]
    cases hadd : s.add source with
    | error f =>
      exact ⟨[], source :: sources, rfl, by rwa [List.append_nil], fun hnone => nomatch hnone⟩
    | ok next =>
      obtain ⟨before, after, rfl, hlast, hall⟩ :=
        ih (fun hmem => hstep (List.mem_cons_of_mem _ hmem)) (hstep List.mem_cons_self h hadd)
      refine ⟨source :: before, after, rfl, ?_, hall⟩
      rwa [List.append_assoc, List.singleton_append] at hlast

/-- **What every step preserves** holds when all files are staged. If staging is stopped, it holds
of a stage whose copies are then removed. -/
theorem enter_induction (hstart : P [] (start t))
    (hstep : ∀ {done s source next}, source ∈ sources → P done s → s.add source = .ok next →
      P (done ++ [source]) next) :
    (∀ {s}, enter t sources = (s, none) → P sources s) ∧
      ∀ {s f}, enter t sources = (s, some f) →
        ∃ done stopped, P done stopped ∧ s = stopped.cleaned := by
  obtain ⟨before, after, hsplit, hlast, hall⟩ := addAll_induction hstep hstart
  unfold enter
  constructor
  · intro s henter
    obtain ⟨hs, hnone⟩ := Prod.mk.inj henter
    rw [hall hnone, List.append_nil] at hsplit
    rw [hnone] at hs
    rw [hsplit, ← hs]
    exact hlast
  · intro s f henter
    obtain ⟨hs, hsome⟩ := Prod.mk.inj henter
    rw [hsome] at hs
    exact ⟨_, _, hlast, hs.symm⟩

end Staging

end ExpectedDiagnostics
