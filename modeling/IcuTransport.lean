import IcuTransport.Limits
import IcuTransport.Library.Search
import IcuTransport.Library.Ascii
import IcuTransport.Library.Loop
import IcuTransport.Library.Browser
import IcuTransport.Library.Trace
import IcuTransport.Library.Custody
import IcuTransport.Library.Regions
import IcuTransport.Library.Uri
import IcuTransport.Library.Utf16
import IcuTransport.Wire.HeaderScan
import IcuTransport.Wire.HeaderLines
import IcuTransport.Wire.Reference
import IcuTransport.Wire.Reading
import IcuTransport.Wire.Segmentation
import IcuTransport.Wire.Framing
import IcuTransport.Wire.Values
import IcuTransport.Wire.Faults
import IcuTransport.Wire.CaptureLimit
import IcuTransport.Redirect.Location
import IcuTransport.Redirect.Rewrite
import IcuTransport.Redirect.Editing
import IcuTransport.Redirect.Authority
import IcuTransport.Redirect.Room
import IcuTransport.Redirect.Schemes
import IcuTransport.Redirect.Resolution
import IcuTransport.Capture.Utf8
import IcuTransport.Capture.Utf8Reads
import IcuTransport.Capture.Metadata
import IcuTransport.Capture.FileTree
import IcuTransport.Capture.Understanding
import IcuTransport.Capture.RoundTrip
import IcuTransport.Capture.Charset
import IcuTransport.Capture.DeclaredType
import IcuTransport.Connect.Proxy
import IcuTransport.Connect.ProxyGrammar
import IcuTransport.Connect.Opening
import IcuTransport.Connect.Tunnel
import IcuTransport.Connect.Stages
import IcuTransport.Connect.StaleErrno
import IcuTransport.Connect.Holding
import IcuTransport.Connect.Transfer
import IcuTransport.Numerals
import IcuTransport.Client.Run
import IcuTransport.Client.Steps
import IcuTransport.Client.Chain
import IcuTransport.Client.Budget
import IcuTransport.Client.Journey
import IcuTransport.Client.Cycles
import IcuTransport.Client.Ownership
import IcuTransport.Client.Released
import IcuTransport.Client.Segmented
import IcuTransport.Client.Capturing
import IcuTransport.Client.Modes
import IcuTransport.Client.Locations
import IcuTransport.Client.Failures
import IcuTransport.Client.Fetching
import IcuTransport.Client.Browsing
import IcuTransport.Client.CaptureProgram
import IcuTransport.Client.CaptureDirectory
import IcuTransport.Client.Credentials
import IcuTransport.Client.Traced
import IcuTransport.Client.Ways
import IcuTransport.Client.Sending
import IcuTransport.Client.Discipline
import IcuTransport.Client.Exposure
import IcuTransport.Client.Confidential
import IcuTransport.Client.TunnelRequests
import IcuTransport.Client.Output
import IcuTransport.Client.Received
import IcuTransport.Client.Answers
import IcuTransport.Android.Strings
import IcuTransport.Android.Bridges
import IcuTransport.Android.Session
import IcuTransport.Android.Exceptions
import IcuTransport.Android.Replies
import IcuTransport.Android.Discipline
