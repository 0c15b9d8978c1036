import PaperIndex.Metrics.Window
import PaperIndex.Text.Pieces

/-! # The counter keys of a subject

Every count of a subject stands under a key that is made of a lead and the subject's URI. -/

namespace PaperIndex.Metrics.Keys

/-- The lead of the tallies of views. -/
def viewsLead : String := "views:"

/-- The lead of the tallies of downloads. -/
def downloadsLead : String := "downloads:"

/-- The lead of the views within a window. -/
def windowLead (w : Window) : String := viewsLead ++ w.label ++ ":"

/-- The tally of views. -/
def views (uri : String) : String := viewsLead ++ uri

/-- The set of views within a window. -/
def window (w : Window) (uri : String) : String := windowLead w ++ uri

/-- The sketch of viewers. -/
def viewers (uri : String) : String := "unique:" ++ uri

/-- The tally of downloads. -/
def downloads (uri : String) : String := downloadsLead ++ uri

/-- The sketch of downloaders. -/
def downloaders (uri : String) : String := "unique:downloads:" ++ uri

/-- The tally of dwelled milliseconds. -/
def dwellTotal (uri : String) : String := "dwell:total:" ++ uri

/-- The tally of dwell samples. -/
def dwellCount (uri : String) : String := "dwell:count:" ++ uri

/-- The tally of clicks in a search. -/
def searchClicks (uri : String) : String := "search:clicks:" ++ uri

/-- The tally of downloads from a search. -/
def searchDownloads (uri : String) : String := "search:downloads:" ++ uri

/-- Whether what follows the lead of views is a window and a subject. -/
def isWindowed (rest : String) : Bool :=
  Window.all.any fun w => Text.hasLead (w.label ++ ":") rest

end PaperIndex.Metrics.Keys
