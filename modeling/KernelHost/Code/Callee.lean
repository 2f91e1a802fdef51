import KernelHost.Settings.Hook

/-!
# Functions and macros

Everything that the host program calls: the runtime, the C library, the macros of its own headers,
and the hooks and generators from outside.
-/

namespace KernelHost.Code

/-- A function or a macro that is called. -/
inductive Callee
  /-- The runtime: platforms. -/
  | clGetPlatformIDs
  /-- The runtime: devices of a platform. -/
  | clGetDeviceIDs
  | clCreateContext
  /-- The runtime: a queue, in version 1.2. -/
  | clCreateCommandQueue
  /-- The runtime: a queue, in version 2.0. -/
  | clCreateCommandQueueWithProperties
  /-- The runtime: a program from code for the device. -/
  | clCreateProgramWithBinary
  /-- The runtime: a program from its text. -/
  | clCreateProgramWithSource
  | clBuildProgram
  | clCreateKernel
  | clCreateBuffer
  | clSetKernelArg
  /-- The runtime: a transfer to the device. -/
  | clEnqueueWriteBuffer
  /-- The runtime: a launch. -/
  | clEnqueueNDRangeKernel
  | clFinish
  /-- The runtime: a transfer from the device. -/
  | clEnqueueReadBuffer
  | clReleaseEvent
  | clReleaseMemObject
  | clReleaseKernel
  | clReleaseProgram
  | clReleaseCommandQueue
  | clReleaseContext
  | malloc
  | free
  | fopen
  | fseek
  | ftell
  | fread
  | fclose
  | printf
  | gettimeofday
  | printStep
  | printSuccess
  | printFail
  /-- The common header: leaving for the clean-up unless a condition holds. -/
  | assertCall
  /-- The program's own: reporting a call of the runtime. -/
  | functionError
  /-- The program's own: reporting a call of the C library. -/
  | posixError
  /-- The program's own: reporting an index out of range. -/
  | lookupError
  /-- The program's own: whether two values are too far apart. -/
  | testEpsilon
  | hook (h : Hook)
  /-- A generator of the manifest. -/
  | generator (name : String)
  deriving DecidableEq, Repr

/-- The C identifier of a function or a macro. -/
def Callee.text : Callee → String
  | .clGetPlatformIDs => "clGetPlatformIDs"
  | .clGetDeviceIDs => "clGetDeviceIDs"
  | .clCreateContext => "clCreateContext"
  | .clCreateCommandQueue => "clCreateCommandQueue"
  | .clCreateCommandQueueWithProperties => "clCreateCommandQueueWithProperties"
  | .clCreateProgramWithBinary => "clCreateProgramWithBinary"
  | .clCreateProgramWithSource => "clCreateProgramWithSource"
  | .clBuildProgram => "clBuildProgram"
  | .clCreateKernel => "clCreateKernel"
  | .clCreateBuffer => "clCreateBuffer"
  | .clSetKernelArg => "clSetKernelArg"
  | .clEnqueueWriteBuffer => "clEnqueueWriteBuffer"
  | .clEnqueueNDRangeKernel => "clEnqueueNDRangeKernel"
  | .clFinish => "clFinish"
  | .clEnqueueReadBuffer => "clEnqueueReadBuffer"
  | .clReleaseEvent => "clReleaseEvent"
  | .clReleaseMemObject => "clReleaseMemObject"
  | .clReleaseKernel => "clReleaseKernel"
  | .clReleaseProgram => "clReleaseProgram"
  | .clReleaseCommandQueue => "clReleaseCommandQueue"
  | .clReleaseContext => "clReleaseContext"
  | .malloc => "malloc"
  | .free => "free"
  | .fopen => "fopen"
  | .fseek => "fseek"
  | .ftell => "ftell"
  | .fread => "fread"
  | .fclose => "fclose"
  | .printf => "printf"
  | .gettimeofday => "gettimeofday"
  | .printStep => "PRINT_STEP"
  | .printSuccess => "PRINT_SUCCESS"
  | .printFail => "PRINT_FAIL"
  | .assertCall => "ASSERT_CALL"
  | .functionError => "FUNCTION_ERROR_STATEMENTS"
  | .posixError => "POSIX_ERROR_STATEMENTS"
  | .lookupError => "LOOKUP_ERROR_STATEMENTS"
  | .testEpsilon => "TEST_EPSILON"
  | .hook h => h.macroName
  | .generator name => name

end KernelHost.Code
