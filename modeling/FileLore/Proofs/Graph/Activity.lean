import FileLore.Graph.Entity
import FileLore.Proofs.Calendar.Written
import FileLore.Proofs.Text.Parts
import FileLore.Proofs.Text.Split

/-!
# When an activity took place

The node of an activity tells its time twice: as a date and time in an observation,
and in seconds from the start of 1970 at the end of its name. Both are read off the
node here, and they are always the same time (`ofActivity_timesAgree`).
-/

namespace FileLore.Entity

open Text

/-- The date and time in the observation of a node that has one. -/
def shownTime? (entity : Entity) : Option DateTime :=
  match entity.observations.filterMap fun observation =>
      afterStart? "Timestamp: ".toList observation.toList with
  | [text] => DateTime.ofText? text
  | _ => none

/-- The number of an instant behind the last underscore in the name of a node. -/
def instantInName? (entity : Entity) : Option Int :=
  (splitAt '_' entity.name.toList).getLast?.bind instantOfText?

variable (action path project details : String) (now : Int)

/-- Nothing else in the node begins like the time. -/
theorem shownTime?_ofActivity : shownTime? (ofActivity action path project details now) =
    DateTime.ofText? (timestamp now).toList := by
  have hother (label value : String)
      (h : ∀ rest, afterStart? "Timestamp: ".toList (label.toList ++ rest) = none) :
      afterStart? "Timestamp: ".toList (label ++ value).toList = none := by
    rw [String.toList_append, h]
  have htime : afterStart? "Timestamp: ".toList ("Timestamp: " ++ timestamp now).toList =
      some (timestamp now).toList := by
    rw [String.toList_append, afterStart?_append]
  rw [shownTime?, ofActivity, List.filterMap_cons, hother "Action: " action fun _ => rfl,
    List.filterMap_cons, hother "File: " path fun _ => rfl,
    List.filterMap_cons, hother "Project: " project fun _ => rfl,
    List.filterMap_cons, hother "Details: " details fun _ => rfl,
    List.filterMap_cons, htime]
  rfl

theorem underscore_notMem_intText : '_' ∉ intText now := by
  cases now with
  | ofNat n => exact fun h => absurd (digit_of_mem_natText h) (by decide)
  | negSucc n =>
    rw [intText, List.mem_cons]
    rintro (h | h)
    · exact absurd h (by decide)
    · exact absurd (digit_of_mem_natText h) (by decide)

/-- The name may hold underscores of its own, but none behind the one in front of the number. -/
theorem instantInName?_ofActivity :
    instantInName? (ofActivity action path project details now) = some now := by
  have hname : (ofActivity action path project details now).name.toList =
      ("Activity_" ++ action ++ "_" ++ Path.baseName path).toList ++ '_' :: intText now := by
    have hnumber : (instantText now).toList = intText now := String.toList_ofList
    rw [ofActivity, String.toList_append, String.toList_append, hnumber, List.append_assoc]
    rfl
  rw [instantInName?, hname, splitAt_append, splitAt_of_notMem (underscore_notMem_intText now),
    List.getLast?_concat, Option.bind_some, instantOfText?_intText]

/-- **The time of an activity.** Its observation shows a date and time that exists, and the seconds
from the start of 1970 to it are those at the end of its name. -/
theorem ofActivity_timesAgree :
    ∃ t, shownTime? (ofActivity action path project details now) = some t ∧ t.IsValid ∧
      instantInName? (ofActivity action path project details now) =
        some (DateTime.secondsOf t) ∧ DateTime.secondsOf t = now := by
  obtain ⟨hvalid, hseconds⟩ := DateTime.ofInstant_isValid now
  refine ⟨DateTime.ofInstant now, ?_, hvalid, ?_, hseconds⟩
  · rw [shownTime?_ofActivity, timestamp, DateTime.ofText?_text hvalid]
  · rw [instantInName?_ofActivity, hseconds]

end FileLore.Entity
