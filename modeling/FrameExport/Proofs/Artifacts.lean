import FrameExport.Proofs.Files.Directories
import FrameExport.Proofs.Session

/-!
# Writing the artifacts

The artifacts are written if the directory can be made and takes both files
(`Artifacts.exists_perform_write`).  Then the page and the style sheet are read with what was written
(`Artifacts.read_of_write`): the page, which comes last, does not touch the style sheet, since their
names in the directory differ.
-/

namespace FrameExport

namespace Artifacts

variable {directory : Path} {html css : String} {artifacts : Artifacts} {s s' : Session}

theorem exists_perform_write {made styled written : FileTree}
    (hmake : s.files.makeDirectories directory = (made, .ok ()))
    (hstyled : made.write (directory.child stylesheetName) css.toUTF8 = .ok styled)
    (hwritten : styled.write (directory.child pageName) html.toUTF8 = .ok written) :
    ∃ s', (write directory html css).perform s = (.ok (inDirectory directory), s') := by
  have hfirst : (Action.makeDirectories directory).perform s
      = (.ok (), { s with files := made }) := by
    rw [Action.perform_makeDirectories, hmake]
    rfl
  have hsecond : (Action.writeFile (directory.child stylesheetName) css).perform
      { s with files := made } = (.ok (), { s with files := styled }) := by
    rw [Action.perform_writeFile, hstyled]
  have hthird : (Action.writeFile (directory.child pageName) html).perform
      { s with files := styled } = (.ok (), { s with files := written }) := by
    rw [Action.perform_writeFile, hwritten]
  rw [write, Action.perform_bind_of_ok hfirst, inDirectory, Action.perform_bind_of_ok hsecond,
    Action.perform_bind_of_ok hthird]
  exact ⟨_, rfl⟩

theorem read_of_write (h : (write directory html css).perform s = (.ok artifacts, s')) :
    s'.files.read (inDirectory directory).page = .ok html.toUTF8
      ∧ s'.files.read (inDirectory directory).stylesheet = .ok css.toUTF8 := by
  rw [write] at h
  obtain ⟨_, made, hmake, h⟩ := Action.perform_bind_eq_ok_iff.mp h
  obtain ⟨_, styled, hstyle, h⟩ := Action.perform_bind_eq_ok_iff.mp h
  obtain ⟨_, written, hpage, h⟩ := Action.perform_bind_eq_ok_iff.mp h
  obtain ⟨-, rfl⟩ := Prod.mk.inj h
  obtain ⟨hmake, -⟩ := Action.makeDirectories_of_perform hmake
  obtain ⟨hstyle, -⟩ := Action.write_of_writeFile hstyle
  obtain ⟨hpage, -⟩ := Action.write_of_writeFile hpage
  obtain ⟨location, hleads⟩ := FileTree.exists_leads_of_makeDirectories hmake
  obtain ⟨place, hlocate, -⟩ := FileTree.write_eq_ok_iff.mp hpage
  have hne : styled.files.locate (directory.child pageName)
      ≠ styled.files.locate (directory.child stylesheetName) :=
    (hleads.of_write hstyle).locate_child_ne (by decide) (by decide) (by decide) (by decide)
      (by decide) hlocate
  exact ⟨FileTree.read_of_write hpage,
    FileTree.read_of_write_elsewhere hpage (FileTree.read_of_write hstyle) hne⟩

end Artifacts

end FrameExport
