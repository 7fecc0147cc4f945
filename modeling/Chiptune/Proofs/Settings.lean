import Chiptune.Proofs.Settings.Volumes
import Chiptune.Proofs.Text.StrictText
import Chiptune.Settings.File

/-! Settings that can be used, and the settings files that offer some. A file offers settings if its
bytes are a text, the text describes settings, and all of these keep their limits; one setting out
of its limits, whichever it is, leaves the file without any.
-/

namespace Chiptune.Settings

variable {settings : Settings} {reader : Reader} {content : Except IoError (List UInt8)}

-----------------------------------------------------------------------------------------
-- Limits
-----------------------------------------------------------------------------------------

end Chiptune.Settings
