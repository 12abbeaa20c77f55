/-!
# InstallAssistant.Program

The name and the version that the program tells others.
-/

namespace InstallAssistant.Program

def name : String := "installer-llm"

def version : String := "0.1.0"

end InstallAssistant.Program
